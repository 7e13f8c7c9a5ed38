import Mathlib
import Sdr.Bridge.SdrRegs
import Sdr.Lib.CordicAngle
import Sdr.Fpga.CordicConvergence

/-!
# OscillatorAccuracy — what the oscillator oscillates with

Sixteen stages turn `CORDIC_K` by the low bits of the phase, and the quadrant by the rest.  The outputs
are the cosine and the sine of the phase, of amplitude 32767, with an error of at most 25
(`near_sincos`); a unit of the phase is `2π / 2 ^ 32`.  Tuned by the bridge, the `n`-th output of the
oscillator belongs to the phase `n * freq_word`, which drifts from that of the wanted frequency by at
most half a unit a sample.
-/

namespace Sdr
namespace Fpga
namespace CordicSincos

open Lib Turning

/-! ## Constants -/

/-- The angle of turn `i`, with the error of its series, against `ATAN_TABLE` in units of `π / 2 ^ 31`. -/
theorem angle_check : ∀ i < 15,
    |314159265358979 / 10 ^ 14 * ((angle (i + 1) : ℤ) : ℚ) / 2 ^ 31 -
        arctanSum (1 / 2 ^ (i + 1)) 12| +
      (1 / 2 ^ (i + 1)) ^ 25 / 25 + 1 / 10 ^ 13 ≤ 1 / 10 ^ 8 := by
  decide +kernel

/-- The error at stage `i`, in hundredths. -/
def errorBounds : Nat → Int
  | 0 => 0
  | 1 => 142
  | 2 => 301
  | 3 => 452
  | 4 => 598
  | 5 => 741
  | 6 => 883
  | 7 => 1025
  | 8 => 1167
  | 9 => 1309
  | 10 => 1451
  | 11 => 1593
  | 12 => 1735
  | 13 => 1877
  | 14 => 2019
  | 15 => 2161
  | _ => 2303

/-- An error of `1.415` fits between the bounds of two stages. -/
theorem errorBounds_step : ∀ i < 16,
    (4 ^ i + 1) * (100 * errorBounds i) ^ 2 ≤ 4 ^ i * (100 * errorBounds (i + 1) - 14150) ^ 2 ∧
      14150 ≤ 100 * errorBounds (i + 1) := by
  decide

noncomputable section

/-- The angle that a unit of the phase stands for. -/
def unit : ℝ :=
  (2 : ℕ) * Real.pi / (2 ^ 32 : ℕ)

theorem unit_eq : unit = 2 * Real.pi / 2 ^ 32 := by
  norm_num [unit]

theorem abs_unit_mul_angle_le {i : Nat} (hi : i < 16) :
    |unit * (angle i : ℤ) - turnAngle i| ≤ 1 / 10 ^ 8 := by
  cases i with
  | zero =>
      have hangle : angle 0 = 2 ^ 29 := by decide
      have hturn : turnAngle 0 = Real.pi / 4 := by
        rw [turnAngle, pow_zero, div_one, Real.arctan_one]
      have heighth : unit * ((2 ^ 29 : ℤ) : ℝ) - Real.pi / 4 = 0 := by
        rw [unit_eq]
        push_cast
        ring
      rw [hangle, hturn, heighth, abs_zero]
      positivity
  | succ k =>
      have hcheck : |314159265358979 / 10 ^ 14 * ((angle (k + 1) : ℤ) : ℝ) / 2 ^ 31 -
            (arctanSum (1 / 2 ^ (k + 1)) 12 : ℝ)| + (1 / 2 ^ (k + 1)) ^ 25 / 25 + 1 / 10 ^ 13 ≤
          (1 : ℝ) / 10 ^ 8 := by
        have hrat := Rat.cast_le (K := ℝ).2 (angle_check k (by omega))
        push_cast at hrat
        exact hrat
      have hhalf : (1 : ℚ) / 2 ^ (k + 1) < 1 := by
        rw [div_lt_one (by positivity)]
        exact one_lt_pow₀ (by norm_num) (by omega)
      have hseries := abs_arctan_sub_arctanSum_le (by positivity) hhalf 12
      push_cast at hseries
      -- The angle is at most an eighth of the circle, which is what the digits of `π` are for.
      obtain ⟨hangle0, hangle1⟩ : 0 ≤ angle (k + 1) ∧ angle (k + 1) ≤ 2 ^ 29 := by
        have htable : ∀ j < 15, 0 ≤ angle (j + 1) ∧ angle (j + 1) ≤ 2 ^ 29 := by decide
        exact htable k (by omega)
      have hlo : (0 : ℝ) ≤ (angle (k + 1) : ℤ) := by exact_mod_cast hangle0
      have hhi : ((angle (k + 1) : ℤ) : ℝ) ≤ 2 ^ 29 := by exact_mod_cast hangle1
      have hdigits : |unit * (angle (k + 1) : ℤ) -
          314159265358979 / 10 ^ 14 * ((angle (k + 1) : ℤ) : ℝ) / 2 ^ 31| ≤ 1 / 10 ^ 13 := by
        have hsplit : unit * (angle (k + 1) : ℤ) -
            314159265358979 / 10 ^ 14 * ((angle (k + 1) : ℤ) : ℝ) / 2 ^ 31 =
              (Real.pi - 314159265358979 / 10 ^ 14) * (((angle (k + 1) : ℤ) : ℝ) / 2 ^ 31) := by
          rw [unit_eq]
          ring
        have hpi : |Real.pi - 314159265358979 / 10 ^ 14| ≤ 1 / 10 ^ 13 := by
          have := Real.pi_gt_d20
          have := Real.pi_lt_d20
          rw [abs_le]
          constructor <;> linarith
        have hshare : |((angle (k + 1) : ℤ) : ℝ) / 2 ^ 31| ≤ 1 := by
          rw [abs_of_nonneg (by positivity), div_le_one (by positivity)]
          exact le_trans hhi (by norm_num)
        rw [hsplit, abs_mul]
        exact le_trans (mul_le_of_le_one_right (abs_nonneg _) hshare) hpi
      rw [turnAngle]
      rw [abs_sub_comm] at hseries
      have htotal := abs_sub_le (unit * (angle (k + 1) : ℤ))
        (314159265358979 / 10 ^ 14 * ((angle (k + 1) : ℤ) : ℝ) / 2 ^ 31)
        (Real.arctan (1 / 2 ^ (k + 1)))
      have hrest := abs_sub_le (314159265358979 / 10 ^ 14 * ((angle (k + 1) : ℤ) : ℝ) / 2 ^ 31)
        (arctanSum (1 / 2 ^ (k + 1)) 12 : ℝ) (Real.arctan (1 / 2 ^ (k + 1)))
      linarith

theorem growth_mem :
    32767 ≤ 19898 * growth 16 ∧ 19898 * growth 16 ≤ (32767.3 : ℝ) := by
  have hsq : (19898 * growth 16) ^ 2 = 19898 ^ 2 * ∏ i ∈ Finset.range 16, (1 + 1 / 4 ^ i : ℝ) := by
    rw [mul_pow, growth_sq]
  have hnonneg : (0 : ℝ) ≤ 19898 * growth 16 := mul_nonneg (by norm_num) (growth_nonneg 16)
  constructor
  · refine le_of_sq_le_sq ?_ hnonneg
    rw [hsq]
    norm_num [Finset.prod_range_succ]
  · refine le_of_sq_le_sq ?_ (by norm_num)
    rw [hsq]
    norm_num [Finset.prod_range_succ]

def error (i : Nat) : ℝ :=
  errorBounds i / (100 : ℕ)

theorem error_eq (i : Nat) : error i = errorBounds i / 100 := by
  norm_num [error]

theorem error_step {i : Nat} (hi : i < 16) :
    error i * gain i + √2 + 19898 * growth (i + 1) * (1 / 10 ^ 8) ≤ error (i + 1) := by
  obtain ⟨hcheck, hroom⟩ := errorBounds_step i hi
  have hsq : error i ^ 2 * (1 + 1 / 4 ^ i) ≤
      (((100 * errorBounds (i + 1) - 14150 : Int) : ℝ) / 10000) ^ 2 := by
    rw [error_eq, scale_square, ← unscale_square i]
    gcongr
  have hnonneg : (0 : Int) ≤ 100 * errorBounds (i + 1) - 14150 := by omega
  have hgrown := mul_gain_le (by positivity) hsq
  have hconst : 19898 * growth (i + 1) ≤ 32767.3 :=
    le_trans (mul_le_mul_of_nonneg_left (growth_mono (by omega)) (by norm_num)) growth_mem.2
  have hnext : (((100 * errorBounds (i + 1) - 14150 : Int) : ℝ) / 10000) =
      error (i + 1) - 1.415 := by
    rw [error_eq]
    push_cast
    ring
  rw [hnext] at hgrown
  linarith [sqrt_two_le]

/-! ## One phase -/

theorem norm_exactStage_sub_le (phase : BitVec 32) :
    ‖(exactStage phase 16).point - 32767 * heading (unit * (phase.toNat % 2 ^ 30 : Nat))‖ ≤
      25 := by
  have hstart : ‖(⟨CORDIC_K.toInt, 0, (phase.toNat % 2 ^ 30 : Nat)⟩ : Turning).point -
      ((19898 : ℝ) : ℂ)‖ ≤ error 0 := by
    have hk : CORDIC_K.toInt = 19898 := by decide
    have hpoint : (⟨CORDIC_K.toInt, 0, (phase.toNat % 2 ^ 30 : Nat)⟩ : Turning).point =
        ((19898 : ℝ) : ℂ) := by
      apply Complex.ext <;> simp [hk]
    rw [hpoint, sub_self, norm_zero, error_eq]
    norm_num [errorBounds]
  have hturns := norm_turns_sub_le (by norm_num : (0 : ℝ) ≤ 19898)
    (fun i hi => abs_unit_mul_angle_le hi) (fun i hi => error_step hi) hstart
  obtain ⟨hglo, hghi⟩ := growth_mem
  obtain ⟨β, hβ⟩ : ∃ β, β = unit * (phase.toNat % 2 ^ 30 : Nat) := ⟨_, rfl⟩
  obtain ⟨δ, hδ⟩ : ∃ δ : ℝ, δ = unit * (exactStage phase 16).z := ⟨_, rfl⟩
  -- What is left of the angle.
  have hresidual : |δ| ≤ 0.000031 := by
    have hz : |((exactStage phase 16).z : ℝ)| ≤ 20861 := by
      exact_mod_cast le_trans (abs_exactStage_z_le phase (le_refl 16)) (by decide)
    have hunit : (0 : ℝ) ≤ unit := by
      rw [unit_eq]
      positivity
    have hsmall : unit * 20861 ≤ 0.000031 := by
      rw [unit_eq]
      linarith [Real.pi_lt_d2]
    rw [hδ, abs_mul, abs_of_nonneg hunit]
    exact le_trans (mul_le_mul_of_nonneg_left hz hunit) hsmall
  have hangle : unit * ((((phase.toNat % 2 ^ 30 : Nat) : ℤ) : ℝ) - (exactStage phase 16).z) =
      β - δ := by
    rw [hβ, hδ, mul_sub, Int.cast_natCast]
  have herror : error 16 = 23.03 := by
    rw [error_eq]
    norm_num [errorBounds]
  change ‖(exactStage phase 16).point - ((19898 * growth 16 : ℝ) : ℂ) *
    heading (unit * ((((phase.toNat % 2 ^ 30 : Nat) : ℤ) : ℝ) - (exactStage phase 16).z))‖ ≤ _
      at hturns
  rw [hangle, herror] at hturns
  have hturned : ‖((19898 * growth 16 : ℝ) : ℂ) * (heading (β - δ) - heading β)‖ ≤ 1.1 := by
    have hchord := norm_heading_sub_le (β - δ) β
    rw [sub_sub_cancel_left, abs_neg] at hchord
    rw [norm_mul, Complex.norm_real, Real.norm_eq_abs, abs_of_nonneg (by linarith)]
    calc
      _ ≤ 32767.3 * 0.000031 :=
          mul_le_mul hghi (le_trans hchord hresidual) (norm_nonneg _) (by norm_num)
      _ ≤ 1.1 := by norm_num
  have hlength : ‖((19898 * growth 16 - 32767 : ℝ) : ℂ) * heading β‖ ≤ 0.3 := by
    rw [norm_mul, norm_heading, mul_one, Complex.norm_real, Real.norm_eq_abs,
      abs_of_nonneg (by linarith)]
    linarith
  have hsum : (exactStage phase 16).point - 32767 * heading β =
      ((exactStage phase 16).point - ((19898 * growth 16 : ℝ) : ℂ) * heading (β - δ)) +
        (((19898 * growth 16 : ℝ) : ℂ) * (heading (β - δ) - heading β) +
          ((19898 * growth 16 - 32767 : ℝ) : ℂ) * heading β) := by
    push_cast
    ring
  rw [← hβ, hsum]
  refine le_trans (norm_add_le_of_le hturns (norm_add_le_of_le hturned hlength)) ?_
  norm_num

/-- Each quadrant is a right angle. -/
theorem mapped_eq {g : Stage} {v : Turning} (h : Holds g v) (hv : |v.x| ≤ 32791 ∧ |v.y| ≤ 32791) :
    (⟨(mapped g).1.toInt, (mapped g).2.toInt⟩ : ℂ) =
      v.point * heading (g.quadrant.toNat * (Real.pi / 2)) := by
  rw [abs_le, abs_le] at hv
  have hx : (-g.x).toInt = -v.x := toInt_neg_of_fits h.x ⟨by omega, by omega⟩
  have hy : (-g.y).toInt = -v.y := toInt_neg_of_fits h.y ⟨by omega, by omega⟩
  have hright : heading (Real.pi / 2) = Complex.I := by
    apply Complex.ext <;> simp
  have hpow : ∀ n : Nat, heading (n * (Real.pi / 2)) = Complex.I ^ n := by
    intro n
    induction n with
    | zero =>
        simp
    | succ n ih =>
        rw [Nat.cast_succ, add_one_mul, heading_add, ih, hright, pow_succ]
  have hquadrant := g.quadrant.isLt
  rw [hpow]
  rcases (by omega : g.quadrant.toNat = 0 ∨ g.quadrant.toNat = 1 ∨ g.quadrant.toNat = 2 ∨
    g.quadrant.toNat = 3) with hq | hq | hq | hq
  · apply Complex.ext <;> simp [mapped, hq, h.x, h.y]
  · apply Complex.ext <;> simp [mapped, hq, h.x, hy]
  · apply Complex.ext <;> simp [mapped, hq, hx, hy]
  · apply Complex.ext <;> simp [mapped, hq, hx, h.y, pow_succ]

@[simp] theorem rotate_quadrant (i : Nat) (g : Stage) : (rotate i g).quadrant = g.quadrant := by
  cases h : g.z.msb <;> simp [rotate, h]

@[simp] theorem through_rotate_quadrant (j : Nat) (g : Stage) :
    (through rotate j g).quadrant = g.quadrant := by
  induction j with
  | zero =>
      rfl
  | succ j ih =>
      simpa [through] using ih

theorem abs_clamp16_sub_le (v : Int) {r : ℝ} (hr : |r| ≤ 32767) :
    |((clamp16 v : Int) : ℝ) - r| ≤ |(v : ℝ) - r| := by
  obtain ⟨hlo, hhi⟩ := abs_le.1 hr
  -- The limits do not move `r`, and bring no two numbers further apart.
  have hmin : r = min r 32767 := (min_eq_left hhi).symm
  have hmax : r = max (-32768) (min r 32767) := by
    rw [← hmin, max_eq_right (by linarith)]
  rw [clamp16]
  push_cast
  calc
    |max (-32768) (min (v : ℝ) 32767) - r|
        = |max (-32768) (min (v : ℝ) 32767) - max (-32768) (min r 32767)| := by rw [← hmax]
    _ ≤ |min (v : ℝ) 32767 - min r 32767| := by
        rw [max_comm, max_comm (-32768)]
        exact abs_max_sub_max_le_abs _ _ _
    _ ≤ |(v : ℝ) - r| := by
        simpa using abs_min_sub_min_le_max (v : ℝ) 32767 r 32767

/-- For every phase. -/
theorem near_sincos (phase : BitVec 32) :
    |((sincos phase).1.toInt : ℝ) - 32767 * Real.cos (unit * phase.toNat)| ≤ 25 ∧
      |((sincos phase).2.toInt : ℝ) - 32767 * Real.sin (unit * phase.toNat)| ≤ 25 := by
  have hholds := holds_stage true phase (le_refl 16)
  have hmapped := mapped_eq hholds (abs_exactStage_le phase (le_refl 16))
  have hquadrant : (through rotate 16 (enter true phase)).quadrant.toNat = phase.toNat / 2 ^ 30 := by
    have hlt := phase.isLt
    rw [through_rotate_quadrant, enter, BitVec.extractLsb'_toNat, Nat.shiftRight_eq_div_pow]
    exact Nat.mod_eq_of_lt (by omega)
  -- The low bits turn within the quadrant, the two others choose it.
  have hphase : unit * phase.toNat = unit * (phase.toNat % 2 ^ 30 : Nat) +
      (phase.toNat / 2 ^ 30 : Nat) * (Real.pi / 2) := by
    have hsplit : (phase.toNat : ℝ) =
        (phase.toNat % 2 ^ 30 : Nat) + 2 ^ 30 * (phase.toNat / 2 ^ 30 : Nat) := by
      exact_mod_cast (Nat.mod_add_div phase.toNat (2 ^ 30)).symm
    rw [hsplit, unit_eq]
    push_cast
    ring
  obtain ⟨p, hp⟩ : ∃ p : ℂ, p = ⟨(mapped (through rotate 16 (enter true phase))).1.toInt,
      (mapped (through rotate 16 (enter true phase))).2.toInt⟩ := ⟨_, rfl⟩
  have hnear : ‖p - 32767 * heading (unit * phase.toNat)‖ ≤ 25 := by
    rw [hp, hmapped, hquadrant, hphase, heading_add, ← mul_assoc, ← sub_mul, norm_mul, norm_heading,
      mul_one]
    exact norm_exactStage_sub_le phase
  have hre := le_trans (Complex.abs_re_le_norm _) hnear
  have him := le_trans (Complex.abs_im_le_norm _) hnear
  have hcos : |32767 * Real.cos (unit * phase.toNat)| ≤ 32767 := by
    rw [abs_mul, abs_of_nonneg (by norm_num)]
    exact mul_le_of_le_one_right (by norm_num) (Real.abs_cos_le_one _)
  have hsin : |32767 * Real.sin (unit * phase.toNat)| ≤ 32767 := by
    rw [abs_mul, abs_of_nonneg (by norm_num)]
    exact mul_le_of_le_one_right (by norm_num) (Real.abs_sin_le_one _)
  rw [sincos, toInt_satAmp, toInt_satAmp]
  constructor
  · refine le_trans (abs_clamp16_sub_le _ hcos) (le_trans (le_of_eq ?_) hre)
    rw [hp]
    simp
  · refine le_trans (abs_clamp16_sub_le _ hsin) (le_trans (le_of_eq ?_) him)
    rw [hp]
    simp

/-- The phase wraps at the full circle. -/
theorem heading_unit_toNat (n : Nat) (freqWord : BitVec 32) :
    heading (unit * (BitVec.ofNat 32 n * freqWord).toNat) =
      heading (n * (unit * freqWord.toNat)) := by
  have hwrap : (BitVec.ofNat 32 n * freqWord).toNat = n * freqWord.toNat % 2 ^ 32 := by
    rw [BitVec.toNat_mul, BitVec.toNat_ofNat, Nat.mod_mul_mod]
  have hsplit : (n * freqWord.toNat : ℝ) = (n * freqWord.toNat % 2 ^ 32 : Nat) +
      2 ^ 32 * (n * freqWord.toNat / 2 ^ 32 : Nat) := by
    exact_mod_cast (Nat.mod_add_div (n * freqWord.toNat) (2 ^ 32)).symm
  have hturns : (n * (unit * freqWord.toNat) : ℝ) =
      unit * (n * freqWord.toNat % 2 ^ 32 : Nat) +
        (n * freqWord.toNat / 2 ^ 32 : Nat) * (2 * Real.pi) := by
    rw [mul_left_comm, hsplit, unit_eq]
    ring
  rw [hwrap, hturns]
  apply Complex.ext <;> simp

end

end CordicSincos

/-! ## The oscillator of `ddc_core` -/

namespace DdcCore

open Lib CordicSincos Turning

/-- The `n`-th answer is that of the phase `n * freq_word`, whatever sample it meets. -/
structure Oscillates (freqWord : BitVec 32) (is : List Inputs) (s : State) : Prop where
  alignment : Alignment freqWord is s
  answer : ∀ n p, (presentedPairs is)[n]? = some p →
    p.2 = sincos (BitVec.ofNat 32 n * freqWord)

theorem oscillates_resetState (freqWord : BitVec 32) : Oscillates freqWord [] resetState where
  alignment := by
    refine ⟨operands_resetState freqWord, rfl, ?_⟩
    simp [presentedPairs, ownPairs, SampleRepeats]
  answer := by simp [presentedPairs]

theorem Oscillates.step {freqWord : BitVec 32} {is : List Inputs}
    (h : Oscillates freqWord is (runFrom DdcCore.step resetState is)) {e : Inputs}
    (hrst : e.rst = false) (hfreq : e.freqWord = freqWord) :
    Oscillates freqWord (is ++ [e]) (DdcCore.step (runFrom DdcCore.step resetState is) e) := by
  have hpairs : presentedPairs (is ++ [e]) =
      presentedPairs is ++ presented (runFrom DdcCore.step resetState is) e :=
    emits_snoc _ _ _ _ _
  refine ⟨h.alignment.step hrst hfreq, ?_⟩
  intro n p hp
  rw [hpairs] at hp
  rcases Nat.lt_or_ge is.length 18 with hearly | hlate
  · rw [h.alignment.operands.presented_early hearly, List.append_nil] at hp
    exact h.answer n p hp
  · obtain ⟨old, i, x, j, rest, his, hrest⟩ := exists_split hlate
    have hcount : (presentedPairs is).length = old.countP accepted := by
      have hlen : is.length - 18 = old.length := by
        simp [his, hrest]
      rw [h.alignment.count, hlen, his, List.take_left]
    rw [h.alignment.operands.presented_late his hrest] at hp
    rcases Nat.lt_or_ge n (presentedPairs is).length with hold | hnew
    · rw [List.getElem?_append_left hold] at hp
      exact h.answer n p hp
    · rw [List.getElem?_append_right hnew] at hp
      -- There is at most one new answer, to the next accepted sample.
      cases hacc : accepted i with
      | false =>
          simp [hacc] at hp
      | true =>
          rw [hacc, if_pos rfl, List.getElem?_singleton] at hp
          split_ifs at hp with hzero
          obtain rfl := Option.some.inj hp
          have hn : n = old.countP accepted := by omega
          rw [hn]

theorem oscillates_runFrom {freqWord : BitVec 32} {is : List Inputs}
    (his : ∀ i ∈ is, i.rst = false ∧ i.freqWord = freqWord) :
    Oscillates freqWord is (runFrom step resetState is) := by
  have hrun : ∀ is : List Inputs,
      Along step (fun _ i => i.rst = false ∧ i.freqWord = freqWord) resetState is →
        Oscillates freqWord is (runFrom step resetState is) := by
    apply history_invariant
    · exact oscillates_resetState freqWord
    · intro is e h he
      exact h.step he.1 he.2
  exact hrun is (along_of_forall (fun _ => his))

noncomputable section

/-- The word of the bridge is within half a unit of the frequency. -/
theorem abs_unit_mul_sdrFreqWord_le {f : BitVec 64} (hf : f.toNat ≤ 108000000) :
    |unit * (Bridge.sdrFreqWord f).toNat - 2 * Real.pi * f.toNat / 250000000| ≤
      Real.pi / 2 ^ 32 := by
  have hround : |((Bridge.sdrFreqWord f).toNat : ℝ) - f.toNat * 2 ^ 32 / 250000000| ≤ 1 / 2 := by
    have hrat := abs_sub_round ((f.toNat * 2 ^ 32 : ℚ) / 250000000)
    rw [← Bridge.sdrFreqWord_eq_round hf, abs_sub_comm, Int.cast_natCast] at hrat
    have hreal := Rat.cast_le (K := ℝ).2 hrat
    push_cast at hreal
    exact hreal
  have hsplit : unit * (Bridge.sdrFreqWord f).toNat - 2 * Real.pi * f.toNat / 250000000 =
      unit * ((Bridge.sdrFreqWord f).toNat - f.toNat * 2 ^ 32 / 250000000) := by
    rw [unit_eq]
    ring
  have hunit : 0 ≤ unit := by
    rw [unit_eq]
    positivity
  rw [hsplit, abs_mul, abs_of_nonneg hunit]
  refine le_trans (mul_le_mul_of_nonneg_left hround hunit) (le_of_eq ?_)
  rw [unit_eq]
  ring

/-- Tuned to `f` Hz, the oscillator mixes the samples with a wave of `f` Hz: sample `n` of 250 MSPS
meets the cosine and the sine of `2πfn / 250e6`, up to 25 units and the drift of the rounded word. -/
theorem oscillator_tracks {f : BitVec 64} (hf : f.toNat ≤ 108000000) {is : List Inputs}
    (his : ∀ i ∈ is, i.rst = false ∧ i.freqWord = Bridge.sdrFreqWord f) {n : Nat}
    {p : BitVec 16 × BitVec 16 × BitVec 16} (hp : (presentedPairs is)[n]? = some p) :
    |(p.2.1.toInt : ℝ) - 32767 * Real.cos (2 * Real.pi * f.toNat * n / 250000000)| ≤
        25 + 32767 * (n * (Real.pi / 2 ^ 32)) ∧
      |(p.2.2.toInt : ℝ) - 32767 * Real.sin (2 * Real.pi * f.toNat * n / 250000000)| ≤
        25 + 32767 * (n * (Real.pi / 2 ^ 32)) := by
  rw [(oscillates_runFrom his).answer n p hp]
  obtain ⟨hcos, hsin⟩ := near_sincos (BitVec.ofNat 32 n * Bridge.sdrFreqWord f)
  rw [← heading_re, heading_unit_toNat] at hcos
  rw [← heading_im, heading_unit_toNat] at hsin
  have hdrift : ‖heading (n * (unit * (Bridge.sdrFreqWord f).toNat)) -
      heading (2 * Real.pi * f.toNat * n / 250000000)‖ ≤ n * (Real.pi / 2 ^ 32) := by
    refine le_trans (norm_heading_sub_le _ _) ?_
    have hsplit : (n * (unit * (Bridge.sdrFreqWord f).toNat) -
        2 * Real.pi * f.toNat * n / 250000000 : ℝ) =
          n * (unit * (Bridge.sdrFreqWord f).toNat - 2 * Real.pi * f.toNat / 250000000) := by
      ring
    rw [hsplit, abs_mul, Nat.abs_cast]
    exact mul_le_mul_of_nonneg_left (abs_unit_mul_sdrFreqWord_le hf) (Nat.cast_nonneg n)
  have hre := le_trans (Complex.abs_re_le_norm _) hdrift
  have him := le_trans (Complex.abs_im_le_norm _) hdrift
  rw [Complex.sub_re, heading_re, heading_re] at hre
  rw [Complex.sub_im, heading_im, heading_im] at him
  rw [heading_re] at hcos
  rw [heading_im] at hsin
  constructor
  · rw [abs_le] at hcos hre ⊢
    constructor <;> linarith [hcos.1, hcos.2, hre.1, hre.2]
  · rw [abs_le] at hsin him ⊢
    constructor <;> linarith [hsin.1, hsin.2, him.1, him.2]

/-- Twenty cycles at 1 MHz. -/
def tuned : List Inputs :=
  List.replicate 20 { steady 5 with freqWord := Bridge.sdrFreqWord 1000000 }

theorem oscillator_tracks_tuned :
    ∃ p, (presentedPairs tuned)[1]? = some p ∧
      |(p.2.1.toInt : ℝ) -
          32767 * Real.cos (2 * Real.pi * ((1000000 : Nat) : ℝ) * (1 : Nat) / 250000000)| ≤
        25 + 32767 * ((1 : Nat) * (Real.pi / 2 ^ 32)) := by
  have hsome : 1 < (presentedPairs tuned).length := by decide +kernel
  have htuned : ∀ i ∈ tuned, i.rst = false ∧ i.freqWord = Bridge.sdrFreqWord 1000000 := by
    intro i hi
    rw [List.eq_of_mem_replicate hi]
    exact ⟨rfl, rfl⟩
  exact ⟨_, List.getElem?_eq_getElem hsome,
    (oscillator_tracks (by decide) htuned (List.getElem?_eq_getElem hsome)).1⟩

end

end DdcCore
end Fpga
end Sdr

