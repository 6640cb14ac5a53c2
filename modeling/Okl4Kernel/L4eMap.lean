import Okl4Kernel.Fpage

/-!
# Mapping a range with `l4e`

`l4e_map` maps a range of virtual addresses to a range of physical ones. Each request is for the
largest page that starts at the current address and fits in both ranges, so the requests tile the
range. `eas_map` uses it to map one page after the other, but takes the result of a request that
succeeded for an error.
-/

namespace Okl4Kernel.L4e

open List Option

/-- `l4e_min_pagebits`: the hardware has pages of 4K, 64K and 1M. -/
def minPagebits : ℕ := 12

/-- The loop of `l4e_biggest_fpage`, with the number of rounds that are left. -/
def biggestBits (addr base last : ℕ) : ℕ → ℕ → ℕ
  | 0, bits => bits
  | n + 1, bits =>
    let nextAddr := addr / 2 ^ (bits + 1) * 2 ^ (bits + 1)
    let nextSize := 2 ^ (bits + 1) % wordSpace
    if nextAddr < base ∨ last < (nextAddr + nextSize + (wordSpace - 1)) % wordSpace then bits
    else biggestBits addr base last n (bits + 1)

/-- `L4_FpageLog2`. -/
def fpageLog2 (base size : ℕ) : Fpage := ⟨base / 1024, size⟩

/-- `l4e_biggest_fpage`. -/
def biggestFpage (addr base last : ℕ) : Fpage :=
  if last < base ∨ (last - base + 1) % wordSpace < 2 ^ minPagebits then fpageLog2 0 0
  else
    let bits := biggestBits addr base last (32 - minPagebits) minPagebits
    fpageLog2 (addr / 2 ^ bits * 2 ^ bits) bits

/-- What the kernel is asked to map: a page, and the address of the frame. -/
structure Request where
  vpage : Fpage
  phys : ℕ
  deriving DecidableEq

/-- The loop of `l4e_map`. The kernel answers the requests with the numbers of `answers`, in turn.
The result has the requests and the value that is returned; it is `none` if the loop takes more
rounds. -/
def mapLoop (vend pend : ℕ) : ℕ → (ℕ → ℤ) → ℕ → ℕ → Option (List Request × ℤ)
  | 0, _, _, _ => none
  | n + 1, answers, vbase, pbase =>
    if vbase < vend then
      let vpage := biggestFpage vbase vbase vend
      let ppage := biggestFpage pbase pbase pend
      let vpage := if ppage.size < vpage.size then fpageLog2 vbase ppage.size else vpage
      if answers 0 = 1 then
        let size := 2 ^ vpage.size % wordSpace
        (mapLoop vend pend n (fun k => answers (k + 1)) ((vbase + size) % wordSpace)
          ((pbase + size) % wordSpace)).map fun r => (⟨vpage, pbase⟩ :: r.1, r.2)
      else some ([⟨vpage, pbase⟩], answers 0)
    else some ([], 1)

/-- `l4e_map`. There are not more rounds than pages, unless the range ends at the top of the address
space. -/
def l4eMap (answers : ℕ → ℤ) (vbase vend pbase : ℕ) : Option (List Request × ℤ) :=
  mapLoop vend ((pbase + vend + (wordSpace - vbase)) % wordSpace)
    (wordSpace / 2 ^ minPagebits) answers vbase pbase

/-- The loop of `l4e_unmap`, with the pages that it unmaps. -/
def unmapLoop (vend : ℕ) : ℕ → ℕ → Option (List Fpage)
  | 0, _ => none
  | n + 1, vbase =>
    if vbase < vend then
      let vpage := biggestFpage vbase vbase vend
      let size := if vpage.size = 0 then 0 else 2 ^ vpage.size % wordSpace
      (unmapLoop vend n ((vbase + size) % wordSpace)).map (vpage :: ·)
    else some []

/-- `l4e_unmap`. -/
def l4eUnmap (vbase vend : ℕ) : Option (List Fpage) :=
  if vbase = 0 ∧ vend = wordSpace - 1 then some [fpageLog2 0 1]
  else unmapLoop vend (wordSpace / 2 ^ minPagebits) vbase

/-! ## The tiling -/

/-- The addresses of a page. -/
def Covers (fp : Fpage) (v : ℕ) : Prop := fp.base * 1024 ≤ v ∧ v < fp.base * 1024 + 2 ^ fp.size

/-- The requests are for pages that are aligned in both ranges and disjoint, and that together map
the range. -/
structure Tiles (vbase vend pbase : ℕ) (rs : List Request) : Prop where
  aligned : ∀ r ∈ rs, 2 ^ r.vpage.size ∣ r.vpage.base * 1024 ∧ 2 ^ r.vpage.size ∣ r.phys
  disjoint : rs.Pairwise fun r r' => ∀ v, Covers r.vpage v → ¬ Covers r'.vpage v
  union : ∀ v, (∃ r ∈ rs, Covers r.vpage v) ↔ vbase ≤ v ∧ v ≤ vend
  phys : ∀ r ∈ rs, ∀ v, Covers r.vpage v →
    r.phys + (v - r.vpage.base * 1024) = pbase + (v - vbase)

/-- The requests that are made, and the value that is returned, if the requests are to be `rs`: the
first one that is not answered with 1 is the last one. -/
def issued (answers : ℕ → ℤ) : List Request → List Request × ℤ
  | [] => ([], 1)
  | r :: rs =>
    if answers 0 = 1 then
      (r :: (issued (fun k => answers (k + 1)) rs).1, (issued (fun k => answers (k + 1)) rs).2)
    else ([r], answers 0)

variable {last vbase vend pbase pend b n m : ℕ} {rs : List Request}

/-- The loop keeps a page that starts at the address and fits. -/
lemma biggestBits_spec {a bits : ℕ} (hlast : last + 1 < wordSpace) (hn : bits + n = 32)
    (hdvd : 2 ^ bits ∣ a) (hle : a + 2 ^ bits ≤ last + 1) :
    bits ≤ biggestBits a a last n bits ∧ 2 ^ biggestBits a a last n bits ∣ a ∧
      a + 2 ^ biggestBits a a last n bits ≤ last + 1 := by
  induction n generalizing bits with
  | zero => exact ⟨le_rfl, hdvd, hle⟩
  | succ n ih =>
    rw [biggestBits]
    split_ifs with hstop
    · exact ⟨le_rfl, hdvd, hle⟩
    · simp only [not_or, not_lt] at hstop
      have heq := Nat.le_antisymm (Nat.div_mul_le_self ..) hstop.1
      have hdvd' : 2 ^ (bits + 1) ∣ a := Nat.dvd_iff_div_mul_eq .. |>.2 heq
      -- A page that is aligned does not reach beyond the address space.
      have hfits : a + 2 ^ (bits + 1) ≤ wordSpace :=
        Nat.le_of_lt_add_of_dvd (by omega) ((Nat.dvd_add_self_right).2 hdvd')
          (pow_dvd_pow 2 (by omega))
      have hle' : a + 2 ^ (bits + 1) ≤ last + 1 := by
        have hpos : 0 < 2 ^ (bits + 1) := by positivity
        have hstop' := hstop.2
        rw [heq] at hstop'
        unfold wordSpace at hlast hfits hstop'
        omega
      obtain ⟨hbits, hrest⟩ := ih (by omega) hdvd' hle'
      exact ⟨by omega, hrest⟩

/-- The page that is found at the start of `m` pages of 4K. -/
lemma biggestFpage_spec {a : ℕ} (ha : 4096 ∣ a) (hm : 0 < m) (heq : last + 1 = a + m * 4096)
    (hlast : last + 1 < wordSpace) : ∃ b, biggestFpage a a last = fpageLog2 a b ∧ 12 ≤ b ∧
      2 ^ b ∣ a ∧ a + 2 ^ b ≤ last + 1 := by
  have hfits : a + 2 ^ minPagebits ≤ last + 1 := by
    rw [minPagebits]
    omega
  obtain ⟨hb, hdvd, hroom⟩ := biggestBits_spec hlast (n := 32 - minPagebits) rfl ha hfits
  refine ⟨_, ?_, hb, hdvd, hroom⟩
  have hguard : ¬ (last < a ∨ (last - a + 1) % wordSpace < 2 ^ minPagebits) := by
    rw [Nat.mod_eq_of_lt (by omega)]
    omega
  rw [biggestFpage, if_neg hguard]
  dsimp only
  rw [Nat.div_mul_cancel hdvd]

lemma fpageLog2_base (h : 4096 ∣ vbase) : (fpageLog2 vbase b).base * 1024 = vbase :=
  Nat.div_mul_cancel (Nat.dvd_trans (by decide) h)

lemma covers_fpageLog2 (h : 4096 ∣ vbase) (v : ℕ) :
    Covers (fpageLog2 vbase b) v ↔ vbase ≤ v ∧ v < vbase + 2 ^ b := by
  rw [Covers, fpageLog2_base h]
  rfl

lemma Tiles.cons (h : Tiles (vbase + 2 ^ b) vend (pbase + 2 ^ b) rs) (hv : 4096 ∣ vbase)
    (hvb : 2 ^ b ∣ vbase) (hpb : 2 ^ b ∣ pbase) (hle : vbase + 2 ^ b ≤ vend + 1) :
    Tiles vbase vend pbase (⟨fpageLog2 vbase b, pbase⟩ :: rs) := by
  refine ⟨?_, ?_, ?_, ?_⟩
  · simp only [forall_mem_cons, fpageLog2_base hv]
    exact ⟨⟨hvb, hpb⟩, h.aligned⟩
  · refine pairwise_cons.2 ⟨?_, h.disjoint⟩
    intro r hr v hcovers hrv
    have hge := ((h.union v).1 ⟨r, hr, hrv⟩).1
    have hlt := ((covers_fpageLog2 hv v).1 hcovers).2
    omega
  · intro v
    simp only [exists_mem_cons_iff, covers_fpageLog2 hv, h.union]
    omega
  · simp only [forall_mem_cons, fpageLog2_base hv]
    refine ⟨fun _ _ => trivial, ?_⟩
    intro r hr v hrv
    have hge := ((h.union v).1 ⟨r, hr, hrv⟩).1
    rw [h.phys r hr v hrv]
    omega

/-- The induction is on the rounds that are left; `m` pages remain to be mapped. -/
lemma mapLoop_tiles (hm : m < n) (hv : vend + 1 = vbase + m * 4096)
    (hp : 0 < m → pend + 1 = pbase + m * 4096) (hva : 4096 ∣ vbase) (hpa : 4096 ∣ pbase)
    (hvtop : vend + 1 < wordSpace) (hptop : pbase + m * 4096 < wordSpace) :
    ∃ rs, Tiles vbase vend pbase rs ∧
      ∀ answers, mapLoop vend pend n answers vbase pbase = some (issued answers rs) := by
  induction n generalizing m vbase pbase with
  | zero => exact absurd hm (Nat.not_lt_zero m)
  | succ n ih =>
    rcases Nat.eq_zero_or_pos m with rfl | hpos
    · refine ⟨[], ⟨by simp, .nil, ?_, by simp⟩, ?_⟩
      · simp only [not_mem_nil, false_and, exists_false, false_iff]
        omega
      · intro answers
        rw [mapLoop, if_neg (by omega)]
        rfl
    · obtain ⟨bv, hvpage, hbv, hvdvd, hvle⟩ := biggestFpage_spec hva hpos hv hvtop
      obtain ⟨bp, hppage, hbp, hpdvd, hple⟩ :=
        biggestFpage_spec hpa hpos (hp hpos) (hp hpos ▸ hptop)
      -- The smaller of the two pages is mapped.
      obtain ⟨b, hb, hbv', hbp', hb12⟩ : ∃ b, b = min bv bp ∧ b ≤ bv ∧ b ≤ bp ∧ 12 ≤ b :=
        ⟨_, rfl, min_le_left .., min_le_right .., le_min hbv hbp⟩
      have hpage : (if (fpageLog2 pbase bp).size < (fpageLog2 vbase bv).size then
          fpageLog2 vbase (fpageLog2 pbase bp).size else fpageLog2 vbase bv) =
          fpageLog2 vbase b := by
        rw [hb]
        change (if bp < bv then fpageLog2 vbase bp else fpageLog2 vbase bv) = _
        split_ifs <;> congr <;> omega
      obtain ⟨q, hq⟩ : 4096 ∣ 2 ^ b := pow_dvd_pow 2 hb12
      have hqpos : 0 < 2 ^ b := by positivity
      have hvb := Nat.pow_le_pow_right (n := 2) (by decide) hbv'
      have hpb := Nat.pow_le_pow_right (n := 2) (by decide) hbp'
      obtain ⟨rs, htiles, hissued⟩ := @ih (vbase + 2 ^ b) (pbase + 2 ^ b) (m - q) (by omega)
        (by omega) (by omega) (by omega) (by omega) (by omega)
      refine ⟨_, htiles.cons hva ((pow_dvd_pow 2 hbv').trans hvdvd)
        ((pow_dvd_pow 2 hbp').trans hpdvd) (by omega), ?_⟩
      intro answers
      rw [mapLoop, if_pos (by omega), hvpage, hppage, issued]
      dsimp only
      rw [hpage]
      split_ifs with hone
      · have hsize : 2 ^ (fpageLog2 vbase b).size % wordSpace = 2 ^ b :=
          Nat.mod_eq_of_lt (by change 2 ^ b < _; omega)
        rw [hsize, Nat.mod_eq_of_lt (by omega), Nat.mod_eq_of_lt (by omega), hissued]
        rfl
      · rfl

lemma unmapLoop_covers (hm : m < n) (hv : vend + 1 = vbase + m * 4096)
    (hva : 4096 ∣ vbase) (hvtop : vend + 1 < wordSpace) : ∃ fps, unmapLoop vend n vbase = some fps ∧
      ∀ v, (∃ fp ∈ fps, Covers fp v) ↔ vbase ≤ v ∧ v ≤ vend := by
  induction n generalizing m vbase with
  | zero => exact absurd hm (Nat.not_lt_zero m)
  | succ n ih =>
    rcases Nat.eq_zero_or_pos m with rfl | hpos
    · refine ⟨[], ?_, ?_⟩
      · rw [unmapLoop, if_neg (by omega)]
      · intro v
        simp only [not_mem_nil, false_and, exists_false, false_iff]
        omega
    · obtain ⟨b, hvpage, hb12, hdvd, hle⟩ := biggestFpage_spec hva hpos hv hvtop
      obtain ⟨q, hq⟩ : 4096 ∣ 2 ^ b := pow_dvd_pow 2 hb12
      have hqpos : 0 < 2 ^ b := by positivity
      obtain ⟨fps, hloop, hcovers⟩ := @ih (vbase + 2 ^ b) (m - q) (by omega) (by omega) (by omega)
      have hsize : (if (fpageLog2 vbase b).size = 0 then 0
          else 2 ^ (fpageLog2 vbase b).size % wordSpace) = 2 ^ b := by
        rw [if_neg (by change b ≠ 0; omega)]
        exact Nat.mod_eq_of_lt (by change 2 ^ b < _; omega)
      refine ⟨fpageLog2 vbase b :: fps, ?_, ?_⟩
      · rw [unmapLoop, if_pos (by omega), hvpage]
        dsimp only
        rw [hsize, Nat.mod_eq_of_lt (by omega), hloop]
        rfl
      · intro v
        simp only [exists_mem_cons_iff, covers_fpageLog2 hva, hcovers]
        omega

section

variable (hv : 4096 ∣ vbase) (hp : 4096 ∣ pbase) (hend : 4096 ∣ vend + 1) (hle : vbase ≤ vend + 1)
  (hvtop : vend + 1 < wordSpace) (hptop : pbase + (vend + 1 - vbase) < wordSpace)
include hv hp hend hle hvtop hptop

/-- The requests of `l4e_map` tile the range. -/
lemma exists_issued : ∃ rs, Tiles vbase vend pbase rs ∧
    ∀ answers, l4eMap answers vbase vend pbase = some (issued answers rs) := by
  obtain ⟨m, hm⟩ : 4096 ∣ vend + 1 - vbase := Nat.dvd_sub hend hv
  have hpend : 0 < m → (pbase + vend + (wordSpace - vbase)) % wordSpace + 1 = pbase + m * 4096 := by
    unfold wordSpace at *
    omega
  refine mapLoop_tiles ?_ (by omega) hpend hv hp hvtop (by omega)
  unfold wordSpace minPagebits at *
  omega

/-- The requests of `l4e_map` tile the range, and `l4e_unmap` unmaps what they map. -/
theorem l4eMap_tiles : ∃ rs, Tiles vbase vend pbase rs ∧
    (∀ answers, l4eMap answers vbase vend pbase = some (issued answers rs)) ∧
    ∃ fps, l4eUnmap vbase vend = some fps ∧
      ∀ v, (∃ fp ∈ fps, Covers fp v) ↔ ∃ r ∈ rs, Covers r.vpage v := by
  obtain ⟨rs, htiles, hissued⟩ := exists_issued hv hp hend hle hvtop hptop
  obtain ⟨m, hm⟩ : 4096 ∣ vend + 1 - vbase := Nat.dvd_sub hend hv
  have hrounds : m < wordSpace / 2 ^ minPagebits := by
    unfold wordSpace minPagebits at *
    omega
  obtain ⟨fps, hunmap, hcovers⟩ := unmapLoop_covers hrounds (show vend + 1 = _ by omega) hv hvtop
  refine ⟨rs, htiles, hissued, fps, ?_, ?_⟩
  · rw [l4eUnmap, if_neg (by omega)]
    exact hunmap
  · intro v
    rw [hcovers, htiles.union]

end

theorem l4eMap_tiles_two : ∃ rs, Tiles 0x10000 0x11fff 0x4000 rs ∧
    (∀ answers, l4eMap answers 0x10000 0x11fff 0x4000 = some (issued answers rs)) ∧
    ∃ fps, l4eUnmap 0x10000 0x11fff = some fps ∧
      ∀ v, (∃ fp ∈ fps, Covers fp v) ↔ ∃ r ∈ rs, Covers r.vpage v := by
  apply l4eMap_tiles <;> decide

/-! ## External address spaces -/

variable (lookup : ℕ → Option (ℕ × ℕ))

/-- The frame of a page of 4K, if the page table has a mapping of the given size for it. -/
def pageFrame (virt : ℕ) : Option ℕ :=
  (lookup virt).map fun (phys, size) => if 4096 < size then phys + virt % size else phys

/-- The loop of `eas_map`, when the kernel grants all requests. -/
def easMapLoop (lookup : ℕ → Option (ℕ × ℕ)) (last : ℕ) : ℕ → ℕ → ℕ → Option (List Request × ℤ)
  | 0, _, _ => none
  | n + 1, virt, dst =>
    if virt < last then
      match pageFrame lookup virt with
      | none => easMapLoop lookup last n ((virt + 4096) % wordSpace) dst
      | some phys =>
        (l4eMap (fun _ => 1) dst ((dst + 4095) % wordSpace) phys).bind fun (rs, r) =>
          if r ≠ 0 then some (rs, r)
          else
            (easMapLoop lookup last n ((virt + 4096) % wordSpace)
              ((dst + 4096) % wordSpace)).map fun (rs', r') => (rs ++ rs', r')
    else some ([], 0)

/-- `eas_map`, for a source in a memory section. -/
def easMap (src : Fpage) (dst : ℕ) : Option (List Request × ℤ) :=
  easMapLoop lookup ((src.getAddress + (src.getSize - 1)) % wordSpace)
    (wordSpace / 2 ^ minPagebits) src.getAddress dst

/-- Exactly the pages of the source that have frames are mapped, with the same offsets. -/
def MapsPages (src : Fpage) (dst : ℕ) (rs : List Request) : Prop :=
  ∀ d phys, 4096 ∣ d → ((∃ r ∈ rs, Covers r.vpage d ∧ phys = r.phys + (d - r.vpage.base * 1024)) ↔
    ∃ i < src.getSize / 4096, pageFrame lookup (src.getAddress + i * 4096) = some phys ∧
      d = (dst + i * 4096) % wordSpace)

variable {lookup : ℕ → Option (ℕ × ℕ)} {src : Fpage} {dst : ℕ}

lemma easMapLoop_skip {virt : ℕ} (k : ℕ) (htop : virt + k * 4096 < wordSpace)
    (hlast : virt + k * 4096 ≤ last + 1)
    (hnone : ∀ i < k, pageFrame lookup (virt + i * 4096) = none) :
    easMapLoop lookup last (n + k) virt dst =
      easMapLoop lookup last n (virt + k * 4096) dst := by
  induction k generalizing virt with
  | zero => rw [Nat.zero_mul, Nat.add_zero, Nat.add_zero]
  | succ k ih =>
    have hfirst : pageFrame lookup virt = none := by simpa using hnone 0 (Nat.succ_pos k)
    have hsum (i : ℕ) : virt + 4096 + i * 4096 = virt + (i + 1) * 4096 := by omega
    rw [← Nat.add_assoc, easMapLoop, if_pos (by omega), hfirst]
    dsimp only
    rw [Nat.mod_eq_of_lt (by omega), ← hsum]
    refine ih (by omega) (by omega) fun i hi => ?_
    rw [hsum]
    exact hnone (i + 1) (Nat.succ_lt_succ hi)

/-- `l4e_map` returns 1 if all requests are granted. -/
lemma mapLoop_one {r : ℤ} (h : mapLoop vend pend n (fun _ => 1) vbase pbase = some (rs, r)) :
    r = 1 := by
  induction n generalizing vbase pbase rs with
  | zero => cases h
  | succ n ih =>
    rw [mapLoop] at h
    by_cases hlt : vbase < vend
    · rw [if_pos hlt] at h
      obtain ⟨⟨rs', r'⟩, hrest, h⟩ := map_eq_some_iff.1 h
      cases h
      exact ih hrest
    · rw [if_neg hlt] at h
      cases h
      rfl

lemma biggestFpage_page {a : ℕ} (ha : 4096 ∣ a) (htop : a < wordSpace) :
    biggestFpage a a (a + 4095) = fpageLog2 a 12 := by
  have hbits : biggestBits a a (a + 4095) (32 - minPagebits) minPagebits = 12 := by
    refine if_pos ?_
    unfold wordSpace minPagebits at *
    omega
  rw [biggestFpage, if_neg, hbits]
  · exact congrArg (fpageLog2 · 12) (Nat.div_mul_cancel ha)
  · unfold wordSpace minPagebits
    omega

section

variable {phys : ℕ} (hdst : 4096 ∣ dst) (hphys : 4096 ∣ phys) (hlt : phys < wordSpace)
include hdst hphys hlt

lemma mapLoop_page (htop : dst < wordSpace) :
    mapLoop (dst + 4095) (phys + 4095) (n + 1) (fun _ => 1) dst phys =
      (mapLoop (dst + 4095) (phys + 4095) n (fun _ => 1) ((dst + 4096) % wordSpace)
        ((phys + 4096) % wordSpace)).map fun r => (⟨fpageLog2 dst 12, phys⟩ :: r.1, r.2) := by
  rw [mapLoop, if_pos (by omega), biggestFpage_page hdst htop, biggestFpage_page hphys hlt]
  rfl

lemma l4eMap_eq_mapLoop (htop : dst < wordSpace) : ∃ n,
    l4eMap (fun _ => 1) dst ((dst + 4095) % wordSpace) phys =
      mapLoop (dst + 4095) (phys + 4095) (n + 3) (fun _ => 1) dst phys := by
  have hend : (dst + 4095) % wordSpace = dst + 4095 := by
    unfold wordSpace at *
    omega
  have hpend : (phys + (dst + 4095) + (wordSpace - dst)) % wordSpace = phys + 4095 := by
    unfold wordSpace at *
    omega
  refine ⟨2 ^ 20 - 3, ?_⟩
  rw [l4eMap, hend, hpend]
  rfl

lemma l4eMap_page (htop : dst + 4096 < wordSpace) :
    l4eMap (fun _ => 1) dst ((dst + 4095) % wordSpace) phys =
      some ([⟨fpageLog2 dst 12, phys⟩], 1) := by
  obtain ⟨n, hloop⟩ := l4eMap_eq_mapLoop hdst hphys hlt (by omega)
  rw [hloop, mapLoop_page hdst hphys hlt (by omega), Nat.mod_eq_of_lt htop, mapLoop,
    if_neg (by omega)]
  rfl

/-- At the top of the address space the loop goes on at the address zero, and asks for two frames
there. -/
lemma l4eMap_top (htop : dst + 4096 = wordSpace) {r : ℤ}
    (h : l4eMap (fun _ => 1) dst ((dst + 4095) % wordSpace) phys = some (rs, r)) :
    ∃ r₁ ∈ rs, ∃ r₂ ∈ rs, r₁.vpage.base = 0 ∧ r₂.vpage.base = 0 ∧ r₁.phys ≠ r₂.phys := by
  obtain ⟨n, hloop⟩ := l4eMap_eq_mapLoop hdst hphys hlt (by omega)
  rw [hloop, mapLoop_page hdst hphys hlt (by omega), htop, Nat.mod_self,
    show dst + 4095 = wordSpace - 1 by omega] at h
  have hzero : biggestFpage 0 0 (wordSpace - 1) = fpageLog2 0 0 := by decide
  have hone : biggestFpage 1 1 (wordSpace - 1) = fpageLog2 0 12 := by decide
  obtain ⟨⟨rs₁, _⟩, h₁, h⟩ := map_eq_some_iff.1 h
  cases h
  rw [mapLoop, if_pos (by decide), hzero] at h₁
  dsimp only at h₁
  rw [if_neg (show ¬ _ < (fpageLog2 0 0).size from Nat.not_lt_zero _)] at h₁
  obtain ⟨⟨rs₂, _⟩, h₂, h⟩ := map_eq_some_iff.1 h₁
  cases h
  rw [show (0 + 2 ^ (fpageLog2 0 0).size % wordSpace) % wordSpace = 1 by decide, mapLoop,
    if_pos (by decide), hone] at h₂
  obtain ⟨⟨rs₃, _⟩, h₃, h⟩ := map_eq_some_iff.1 h₂
  cases h
  refine ⟨_, mem_cons_of_mem _ mem_cons_self, _,
    mem_cons_of_mem _ (mem_cons_of_mem _ mem_cons_self), ?_, ?_, ?_⟩
  · rfl
  · split_ifs <;> rfl
  · change (phys + 4096) % wordSpace ≠ ((phys + 4096) % wordSpace + 1) % wordSpace
    unfold wordSpace
    omega

end

section

variable (hsize : 12 ≤ src.size) (hsrc : src.getAddress + src.getSize < wordSpace)
include hsize hsrc

/-- The source has `m` pages, and there are more rounds than pages. -/
lemma easMap_rounds : ∃ m n, src.getSize / 4096 = m ∧ wordSpace / 2 ^ minPagebits = n + 1 + m ∧
    (src.getAddress + (src.getSize - 1)) % wordSpace + 1 = src.getAddress + m * 4096 ∧
    ∀ k ≤ m, src.getAddress + k * 4096 < wordSpace := by
  obtain ⟨m, hm⟩ : 4096 ∣ src.getSize := pow_dvd_pow 2 hsize
  have hpos : 0 < src.getSize := Nat.two_pow_pos _
  refine ⟨m, 2 ^ 20 - 1 - m, ?_, ?_, ?_, ?_⟩
  · omega
  · unfold wordSpace minPagebits at *
    omega
  · rw [Nat.mod_eq_of_lt (by omega)]
    omega
  · exact fun k hk => lt_of_le_of_lt (by omega) hsrc

lemma easMap_of_none (hnone : ∀ i < src.getSize / 4096,
    pageFrame lookup (src.getAddress + i * 4096) = none) :
    easMap lookup src dst = some ([], 0) := by
  obtain ⟨m, n, hm, hrounds, hlast, htop⟩ := easMap_rounds hsize hsrc
  rw [hm] at hnone
  rw [easMap, hrounds, easMapLoop_skip m (htop m le_rfl) hlast.ge hnone, easMapLoop, if_neg (by omega)]

/-- `eas_map` maps the first page that has a frame, and nothing else. -/
lemma easMap_of_first {k phys : ℕ} (hk : k < src.getSize / 4096)
    (hnone : ∀ i < k, pageFrame lookup (src.getAddress + i * 4096) = none)
    (hframe : pageFrame lookup (src.getAddress + k * 4096) = some phys) :
    easMap lookup src dst = l4eMap (fun _ => 1) dst ((dst + 4095) % wordSpace) phys := by
  obtain ⟨m, n, hm, hrounds, hlast, htop⟩ := easMap_rounds hsize hsrc
  have hmore : n + 1 + m = n + (m - k) + 1 + k := by omega
  have hbefore : src.getAddress + k * 4096 < (src.getAddress + (src.getSize - 1)) % wordSpace := by
    omega
  have hbelow := htop k (by omega)
  rw [easMap, hrounds, hmore, easMapLoop_skip k hbelow (Nat.le_succ_of_le hbefore.le) hnone,
    easMapLoop, if_pos hbefore, hframe]
  dsimp only
  cases hmap : l4eMap (fun _ => 1) dst ((dst + 4095) % wordSpace) phys with
  | none => rfl
  | some result =>
    obtain ⟨rs, r⟩ := result
    obtain rfl : r = 1 := mapLoop_one hmap
    rfl

omit hsrc in
lemma pages_pos : 0 < src.getSize / 4096 :=
  Nat.div_pos (Nat.pow_le_pow_right (n := 2) (by decide) hsize) (by decide)

omit hsize in
/-- The pages of the destination are different. -/
lemma dst_inj {i j : ℕ} (hi : i < src.getSize / 4096) (hj : j < src.getSize / 4096)
    (heq : (dst + i * 4096) % wordSpace = (dst + j * 4096) % wordSpace) : i = j := by
  unfold wordSpace at *
  omega

/-- One request for the first page of the destination is right if only the first page of the source
has a frame. -/
lemma mapsPages_singleton_iff (hdst : 4096 ∣ dst) (hlt : dst < wordSpace) {phys : ℕ} :
    MapsPages lookup src dst [⟨fpageLog2 dst 12, phys⟩] ↔
      pageFrame lookup src.getAddress = some phys ∧ ∀ i, 0 < i → i < src.getSize / 4096 →
        pageFrame lookup (src.getAddress + i * 4096) = none := by
  have hpos := pages_pos hsize
  have hzero : (dst + 0 * 4096) % wordSpace = dst := by
    rw [Nat.zero_mul, Nat.add_zero, Nat.mod_eq_of_lt hlt]
  have hcovers (d : ℕ) (hd : 4096 ∣ d) : Covers (fpageLog2 dst 12) d ↔ d = dst := by
    rw [covers_fpageLog2 hdst]
    omega
  unfold MapsPages
  simp only [mem_singleton, exists_eq_left, fpageLog2_base hdst]
  constructor
  · intro hmaps
    -- What has a frame is mapped, and so it is the first page.
    have hfirst : ∀ i < src.getSize / 4096, ∀ phys',
        pageFrame lookup (src.getAddress + i * 4096) = some phys' → i = 0 := by
      intro i hi phys' hframe
      have hd : 4096 ∣ (dst + i * 4096) % wordSpace := by
        unfold wordSpace
        omega
      have hcov := ((hmaps _ phys' hd).2 ⟨i, hi, hframe, rfl⟩).1
      exact dst_inj hsrc hi hpos (((hcovers _ hd).1 hcov).trans hzero.symm)
    refine ⟨?_, fun i hi hlt' => eq_none_iff_forall_ne_some.2 fun phys' hframe => ?_⟩
    · obtain ⟨i, hi, hframe, -⟩ := (hmaps dst phys hdst).1 ⟨(hcovers dst hdst).2 rfl, by simp⟩
      obtain rfl := hfirst i hi phys hframe
      simpa using hframe
    · exact hi.ne' (hfirst i hlt' phys' hframe)
  · rintro ⟨hphys, honly⟩ d phys' hd
    rw [hcovers d hd]
    constructor
    · rintro ⟨rfl, rfl⟩
      exact ⟨0, hpos, by simpa using hphys, hzero.symm⟩
    · rintro ⟨_ | i, hi, hframe, rfl⟩
      · rw [Nat.zero_mul, Nat.add_zero, hphys] at hframe
        cases hframe
        simp only [hzero, Nat.sub_self, Nat.add_zero, and_self]
      · cases (honly _ (Nat.succ_pos i) hi).symm.trans hframe

omit hsize in
/-- Two different frames are not asked for at the address zero. -/
lemma not_mapsPages_of_ne {r₁ r₂ : Request} (hr₁ : r₁ ∈ rs) (hr₂ : r₂ ∈ rs)
    (hb₁ : r₁.vpage.base = 0) (hb₂ : r₂.vpage.base = 0) (hne : r₁.phys ≠ r₂.phys) :
    ¬ MapsPages lookup src dst rs := by
  intro hmaps
  have hasked : ∀ r ∈ rs, r.vpage.base = 0 → ∃ i < src.getSize / 4096,
      pageFrame lookup (src.getAddress + i * 4096) = some r.phys ∧
        0 = (dst + i * 4096) % wordSpace := by
    intro r hr hbase
    refine (hmaps 0 r.phys (Nat.dvd_zero _)).1 ⟨r, hr, ?_, by simp⟩
    rw [Covers, hbase]
    exact ⟨le_rfl, Nat.lt_add_of_pos_right (Nat.two_pow_pos _)⟩
  obtain ⟨i, hi, hi', hzi⟩ := hasked r₁ hr₁ hb₁
  obtain ⟨j, hj, hj', hzj⟩ := hasked r₂ hr₂ hb₂
  obtain rfl := dst_inj hsrc hi hj (hzi.symm.trans hzj)
  exact hne (some.inj (hi'.symm.trans hj'))

end

/-- The pages are mapped as they should be exactly if no page but the first one has a frame, and the
first one, if it has, is not mapped at the top of the address space. -/
theorem easMap_mapsPages_iff (hsize : 12 ≤ src.size)
    (hsrc : src.getAddress + src.getSize < wordSpace) (hdst : 4096 ∣ dst) (hlt : dst < wordSpace)
    (hframes : ∀ i < src.getSize / 4096, ∀ phys,
      pageFrame lookup (src.getAddress + i * 4096) = some phys → 4096 ∣ phys ∧ phys < wordSpace) :
    (∃ rs r, easMap lookup src dst = some (rs, r) ∧ MapsPages lookup src dst rs) ↔
      (∀ i, 0 < i → i < src.getSize / 4096 →
        pageFrame lookup (src.getAddress + i * 4096) = none) ∧
      (pageFrame lookup src.getAddress ≠ none → dst + 4096 < wordSpace) := by
  have hfirst : pageFrame lookup (src.getAddress + 0 * 4096) = pageFrame lookup src.getAddress := by
    rw [Nat.zero_mul, Nat.add_zero]
  have hpos := pages_pos hsize
  by_cases hall : ∀ i < src.getSize / 4096, pageFrame lookup (src.getAddress + i * 4096) = none
  · refine iff_of_true ⟨[], 0, easMap_of_none hsize hsrc hall, fun d phys _ => ?_⟩
      ⟨fun i _ hi => hall i hi, fun hne => absurd (hfirst ▸ hall 0 hpos) hne⟩
    simp only [not_mem_nil, false_and, exists_false, false_iff]
    rintro ⟨i, hi, hsome, -⟩
    cases (hall i hi).symm.trans hsome
  push Not at hall
  obtain ⟨hk, hsome⟩ := Nat.find_spec hall
  have hbefore : ∀ i < Nat.find hall, pageFrame lookup (src.getAddress + i * 4096) = none :=
    fun i hi => not_not.1 fun hne => Nat.find_min hall hi ⟨hi.trans hk, hne⟩
  obtain ⟨phys, hphys⟩ := ne_none_iff_exists'.1 hsome
  obtain ⟨hdvd, hbound⟩ := hframes _ hk phys hphys
  rw [easMap_of_first hsize hsrc hk hbefore hphys]
  -- If no other page has a frame, it is the first page that has one.
  have hzero : (∀ i, 0 < i → i < src.getSize / 4096 → pageFrame lookup (src.getAddress + i * 4096) =
      none) → pageFrame lookup src.getAddress = some phys := by
    intro honly
    rw [← hfirst, ← hphys]
    by_contra hne
    exact hsome (honly _ (Nat.pos_of_ne_zero fun heq => hne (by rw [heq])) hk)
  by_cases htop : dst + 4096 < wordSpace
  · rw [l4eMap_page hdst hdvd hbound htop]
    simp only [some.injEq, Prod.mk.injEq]
    constructor
    · rintro ⟨rs, r, ⟨rfl, -⟩, hmaps⟩
      exact ⟨((mapsPages_singleton_iff hsize hsrc hdst hlt).1 hmaps).2, fun _ => htop⟩
    · rintro ⟨honly, -⟩
      exact ⟨_, 1, ⟨rfl, rfl⟩, (mapsPages_singleton_iff hsize hsrc hdst hlt).2 ⟨hzero honly, honly⟩⟩
  · refine iff_of_false ?_ fun h => htop (h.2 (hzero h.1 ▸ some_ne_none phys))
    rintro ⟨rs, r, heq, hmaps⟩
    obtain ⟨r₁, hr₁, r₂, hr₂, hb₁, hb₂, hne⟩ := l4eMap_top hdst hdvd hbound (by
      unfold wordSpace at *
      omega) heq
    exact not_mapsPages_of_ne hsrc hr₁ hr₂ hb₁ hb₂ hne hmaps

theorem easMap_mapsPages_first : ∃ lookup, pageFrame lookup 0x4000 = some 0x8000 ∧ ∃ rs r,
    easMap lookup ⟨16, 13⟩ 0x10000 = some (rs, r) ∧ MapsPages lookup ⟨16, 13⟩ 0x10000 rs := by
  refine ⟨fun v => if v = 0x4000 then some (0x8000, 4096) else none, rfl, ?_⟩
  have hnone : ∀ i, 0 < i → i < 2 → pageFrame (fun v => if v = 0x4000 then some (0x8000, 4096)
      else none) (0x4000 + i * 4096) = none := by
    intro i hi hlt
    obtain rfl : i = 1 := Nat.le_antisymm (Nat.le_of_lt_succ hlt) hi
    rfl
  refine (easMap_mapsPages_iff (by decide) (by decide) (by decide) (by decide) ?_).2
    ⟨hnone, fun _ => by decide⟩
  rintro (_ | i) hi phys hphys
  · obtain rfl : 0x8000 = phys := some.inj hphys
    decide
  · cases (hnone (i + 1) (Nat.succ_pos i) hi).symm.trans hphys

/-- The second page has a frame as well, but is not mapped. -/
theorem easMap_fails_two : ¬ ∃ rs r,
    easMap (fun v => some (v, 4096)) ⟨16, 13⟩ 0x10000 = some (rs, r) ∧
      MapsPages (fun v => some (v, 4096)) ⟨16, 13⟩ 0x10000 rs := by
  rintro ⟨rs, r, heas, hmaps⟩
  have heq : easMap (fun v => some (v, 4096)) ⟨16, 13⟩ 0x10000 =
      some ([⟨⟨64, 12⟩, 0x4000⟩], 1) := by decide +kernel
  rw [heq] at heas
  cases heas
  obtain ⟨r, hr, hcovers, -⟩ := (hmaps 0x11000 0x5000 (by decide)).2 ⟨1, by decide, rfl, rfl⟩
  rw [mem_singleton.1 hr] at hcovers
  exact absurd hcovers.2 (by decide)

end Okl4Kernel.L4e
