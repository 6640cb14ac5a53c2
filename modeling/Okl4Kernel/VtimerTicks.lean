import Mathlib.Tactic.Linarith
import Mathlib.Tactic.Ring

/-!
# Ticks and nanoseconds

The timer server converts between nanoseconds and the ticks of a device. Whole seconds are
converted apart from the rest, so that the products stay in 64 bits. As long as a second of the
device has less than `2 ^ 64 / 10 ^ 9` ticks, both conversions are exact up to the last unit.
-/

namespace Okl4Kernel.Vtimer

/-- `GIGA`. -/
def giga : UInt64 := 1000000000

/-- `ns_to_ticks`. -/
def nsToTicks (frequency nanoseconds : UInt64) : UInt64 :=
  let seconds : UInt32 := (nanoseconds / giga).toUInt32
  let overflow : UInt32 := (nanoseconds % giga).toUInt32
  let ticks := frequency * seconds.toUInt64
  ticks + frequency * overflow.toUInt64 / giga

/-- `ticks_to_ns`. -/
def ticksToNs (frequency ticks : UInt64) : UInt64 :=
  let seconds := ticks / frequency
  let overflow := ticks % frequency
  let ns := seconds * giga
  ns + overflow * giga / frequency

/-- The values that `ns_to_ticks` computes on the way fit into their types. -/
structure NoOverflow (frequency nanoseconds : ℕ) : Prop where
  seconds : nanoseconds / 10 ^ 9 < 2 ^ 32
  overflow : nanoseconds % 10 ^ 9 < 2 ^ 32
  whole : frequency * (nanoseconds / 10 ^ 9) < 2 ^ 64
  part : frequency * (nanoseconds % 10 ^ 9) < 2 ^ 64
  sum : frequency * (nanoseconds / 10 ^ 9) + frequency * (nanoseconds % 10 ^ 9) / 10 ^ 9 < 2 ^ 64

/-- A product may be divided apart for the multiples of the divisor and for the rest. -/
theorem mul_div_eq_add {g : ℕ} (hg : 0 < g) (f n : ℕ) :
    f * n / g = f * (n / g) + f * (n % g) / g := by
  have hsplit : f * n = f * (n % g) + g * (f * (n / g)) := calc
    f * n = f * (n % g + g * (n / g)) := by rw [Nat.mod_add_div]
    _ = f * (n % g) + g * (f * (n / g)) := by ring
  rw [hsplit, Nat.add_mul_div_left _ _ hg, add_comm]

variable {f : UInt64}

section

variable (hfreq : f.toNat * 10 ^ 9 < 2 ^ 64)
include hfreq

lemma noOverflow {ns : ℕ} (hns : ns < 10 ^ 18) : NoOverflow f.toNat ns := by
  have hseconds : ns / 10 ^ 9 < 10 ^ 9 := by omega
  have hoverflow : ns % 10 ^ 9 < 10 ^ 9 := by omega
  have hwhole := Nat.mul_le_mul_left f.toNat hseconds.le
  have hpart := Nat.mul_le_mul_left f.toNat hoverflow.le
  have hsum := Nat.mul_le_mul_left f.toNat hns.le
  refine ⟨by omega, by omega, by omega, by omega, ?_⟩
  rw [← mul_div_eq_add (by norm_num)]
  omega

lemma nsToTicks_toNat {ns : UInt64} (hns : ns.toNat < 10 ^ 18) :
    (nsToTicks f ns).toNat = f.toNat * ns.toNat / 10 ^ 9 := by
  obtain ⟨hseconds, hoverflow, hwhole, hpart, hsum⟩ := noOverflow hfreq hns
  have hgiga : giga.toNat = 10 ^ 9 := rfl
  rw [mul_div_eq_add (by norm_num)]
  simp only [nsToTicks, UInt64.toNat_add, UInt64.toNat_mul, UInt64.toNat_div, UInt64.toNat_mod,
    UInt32.toNat_toUInt64, UInt64.toNat_toUInt32, hgiga, Nat.mod_eq_of_lt hseconds,
    Nat.mod_eq_of_lt hoverflow, Nat.mod_eq_of_lt hwhole, Nat.mod_eq_of_lt hpart,
    Nat.mod_eq_of_lt hsum]

variable (hf : 1 ≤ f.toNat)
include hf

lemma ticksToNs_toNat {ticks : UInt64} (hticks : ticks.toNat ≤ f.toNat * 10 ^ 9) :
    (ticksToNs f ticks).toNat = ticks.toNat * 10 ^ 9 / f.toNat := by
  have hgiga : giga.toNat = 10 ^ 9 := rfl
  have hseconds : ticks.toNat / f.toNat ≤ 10 ^ 9 := Nat.div_le_of_le_mul hticks
  have hpart : ticks.toNat % f.toNat * 10 ^ 9 < 2 ^ 64 :=
    (Nat.mul_le_mul_right _ (Nat.mod_lt _ hf).le).trans_lt hfreq
  have hns : ticks.toNat * 10 ^ 9 / f.toNat ≤ 10 ^ 18 := by
    refine Nat.div_le_of_le_mul ?_
    omega
  rw [mul_comm, mul_div_eq_add hf] at hns ⊢
  simp only [ticksToNs, UInt64.toNat_add, UInt64.toNat_mul, UInt64.toNat_div, UInt64.toNat_mod,
    hgiga, mul_comm _ (10 ^ 9)] at hpart ⊢
  rw [Nat.mod_eq_of_lt hpart, Nat.mod_eq_of_lt (by omega), Nat.mod_eq_of_lt (by omega)]

end

/-- Converting there and back loses less than a tick and a nanosecond. -/
theorem sub_lt_of_floor {f n : ℕ} (hf : 1 ≤ f) : f * n / 10 ^ 9 * 10 ^ 9 / f ≤ n ∧
    (n : ℚ) - (f * n / 10 ^ 9 * 10 ^ 9 / f : ℕ) < 10 ^ 9 / f + 1 := by
  set ticks := f * n / 10 ^ 9
  have hticks : ticks * 10 ^ 9 ≤ f * n := Nat.div_mul_le_self _ _
  refine ⟨Nat.div_le_of_le_mul hticks, ?_⟩
  set ns := ticks * 10 ^ 9 / f
  have hnext : f * n < ticks * 10 ^ 9 + 10 ^ 9 := by omega
  have hback : ticks * 10 ^ 9 < f * (ns + 1) := Nat.lt_mul_div_succ _ hf
  have hsum : f * n < f * (ns + 1) + 10 ^ 9 := by omega
  have hsum' : (f : ℚ) * n < f * (ns + 1) + 10 ^ 9 := by exact_mod_cast hsum
  have hpos : (0 : ℚ) < f := by exact_mod_cast hf
  rw [← sub_lt_iff_lt_add, lt_div_iff₀ hpos]
  linarith

/-- Below `10 ^ 18` nanoseconds both conversions round down, without an overflow on the way. They
are monotone, and converting there and back loses less than a tick and a nanosecond. -/
theorem ticks_exact (f : UInt64) (hf : 1 ≤ f.toNat) (hfreq : f.toNat * 10 ^ 9 < 2 ^ 64) :
    (∀ ns : UInt64, ns.toNat < 10 ^ 18 → NoOverflow f.toNat ns.toNat ∧
      (nsToTicks f ns).toNat = f.toNat * ns.toNat / 10 ^ 9) ∧
    (∀ ticks : UInt64, ticks.toNat ≤ f.toNat * 10 ^ 9 →
      (ticksToNs f ticks).toNat = ticks.toNat * 10 ^ 9 / f.toNat) ∧
    (∀ ns ns' : UInt64, ns ≤ ns' → ns'.toNat < 10 ^ 18 → nsToTicks f ns ≤ nsToTicks f ns') ∧
    (∀ ticks ticks' : UInt64, ticks ≤ ticks' → ticks'.toNat ≤ f.toNat * 10 ^ 9 →
      ticksToNs f ticks ≤ ticksToNs f ticks') ∧
    ∀ ns : UInt64, ns.toNat < 10 ^ 18 → ticksToNs f (nsToTicks f ns) ≤ ns ∧
      (ns.toNat : ℚ) - (ticksToNs f (nsToTicks f ns)).toNat < 10 ^ 9 / f.toNat + 1 := by
  refine ⟨fun ns hns => ⟨noOverflow hfreq hns, nsToTicks_toNat hfreq hns⟩,
    fun ticks hticks => ticksToNs_toNat hfreq hf hticks, fun ns ns' hle hns' => ?_,
    fun ticks ticks' hle hticks' => ?_, fun ns hns => ?_⟩
  · rw [UInt64.le_iff_toNat_le] at hle ⊢
    rw [nsToTicks_toNat hfreq hns', nsToTicks_toNat hfreq (hle.trans_lt hns')]
    exact Nat.div_le_div_right (Nat.mul_le_mul_left _ hle)
  · rw [UInt64.le_iff_toNat_le] at hle ⊢
    rw [ticksToNs_toNat hfreq hf hticks', ticksToNs_toNat hfreq hf (hle.trans hticks')]
    exact Nat.div_le_div_right (Nat.mul_le_mul_right _ hle)
  · have hticks := nsToTicks_toNat hfreq hns
    have hle : (nsToTicks f ns).toNat ≤ f.toNat * 10 ^ 9 := by
      rw [hticks]
      refine Nat.div_le_of_le_mul ?_
      have hmul := Nat.mul_le_mul_left f.toNat hns.le
      omega
    rw [UInt64.le_iff_toNat_le, ticksToNs_toNat hfreq hf hle, hticks]
    exact sub_lt_of_floor hf

/-- A device with 32768 ticks a second: 5 seconds and a nanosecond. -/
theorem ticks_exact_second : (nsToTicks 32768 5000000001).toNat = 163840 :=
  ((ticks_exact 32768 (by decide) (by decide)).1 5000000001 (by decide)).2

end Okl4Kernel.Vtimer
