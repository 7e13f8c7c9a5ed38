import Mathlib.Analysis.Complex.Norm
import Sdr.Lib.Pipeline

/-!
# Cordic — rotation by shifts and additions

Turn `i` adds to a vector the vector at right angles to it, shifted down by `i` bits, on the side that
brings the residual angle towards zero.  Two facts hold of any number of turns:

* the residual stays below the angles still to come, if no angle exceeds what comes after it
  (`abs_residual_le`);
* the length grows by `√(1 + 1 / 4 ^ i)`, up to an error of `√2` for the two roundings
  (`abs_norm_turn_sub_le`).

The integers here have no width.
-/

namespace Sdr
namespace Lib

/-- A vector and the angle by which it is still to be turned. -/
@[ext] structure Turning where
  x : ℤ
  y : ℤ
  z : ℤ

namespace Turning

/-- Turn `i`, by the angle `a`; division by a power of two rounds down. -/
def turn (i : ℕ) (a : ℤ) (v : Turning) : Turning :=
  if 0 ≤ v.z then
    { x := v.x - v.y / 2 ^ i, y := v.y + v.x / 2 ^ i, z := v.z - a }
  else
    { x := v.x + v.y / 2 ^ i, y := v.y - v.x / 2 ^ i, z := v.z + a }

/-- The first `n` turns. -/
def turns (a : ℕ → ℤ) (n : ℕ) (v : Turning) : Turning :=
  through (fun i => turn i (a i)) n v

theorem turns_succ (a : ℕ → ℤ) (n : ℕ) (v : Turning) :
    turns a (n + 1) v = turn n (a n) (turns a n v) :=
  rfl

/-! ## The residual angle -/

theorem abs_turn_z_le {i : ℕ} {a T : ℤ} {v : Turning} (hz : |v.z| ≤ a + T) (ha : a ≤ T) :
    |(turn i a v).z| ≤ T := by
  obtain ⟨hlo, hhi⟩ := abs_le.1 hz
  rw [turn]
  split_ifs with h
  · exact abs_le.2 ⟨by simp only; omega, by simp only; omega⟩
  · exact abs_le.2 ⟨by simp only; omega, by simp only; omega⟩

/-- `T i` bounds the angles from `i` on. -/
theorem abs_residual_le {a T : ℕ → ℤ} {n : ℕ} (hT : ∀ i < n, T i = a i + T (i + 1))
    (ha : ∀ i < n, a i ≤ T (i + 1)) {v : Turning} (hv : |v.z| ≤ T 0) :
    |(turns a n v).z| ≤ T n := by
  induction n with
  | zero =>
      exact hv
  | succ n ih =>
      have hn := ih (fun i hi => hT i (by omega)) (fun i hi => ha i (by omega))
      rw [hT n (by omega)] at hn
      exact abs_turn_z_le hn (ha n (by omega))

/-! ## The length -/

noncomputable section

/-- The vector as a complex number. -/
def point (v : Turning) : ℂ :=
  ⟨v.x, v.y⟩

@[simp] theorem point_re (v : Turning) : (point v).re = v.x := rfl

@[simp] theorem point_im (v : Turning) : (point v).im = v.y := rfl

/-- The factor of turn `i`. -/
def gain (i : ℕ) : ℝ :=
  √(1 + 1 / 4 ^ i)

theorem rounding (a : ℤ) (i : ℕ) :
    0 ≤ (a : ℝ) / 2 ^ i - (a / 2 ^ i : ℤ) ∧ (a : ℝ) / 2 ^ i - (a / 2 ^ i : ℤ) ≤ 1 := by
  have hpos : (0 : ℤ) < 2 ^ i := by positivity
  have hlo : (a / 2 ^ i) * 2 ^ i ≤ a := Int.ediv_mul_le a (ne_of_gt hpos)
  have hhi : a < (a / 2 ^ i + 1) * 2 ^ i := Int.lt_ediv_add_one_mul_self a hpos
  have hlo' : ((a / 2 ^ i : ℤ) : ℝ) * 2 ^ i ≤ a := by exact_mod_cast hlo
  have hhi' : (a : ℝ) ≤ ((a / 2 ^ i : ℤ) + 1) * 2 ^ i := by exact_mod_cast le_of_lt hhi
  have hposR : (0 : ℝ) < 2 ^ i := by positivity
  constructor
  · rw [sub_nonneg, le_div_iff₀ hposR]
    exact hlo'
  · rw [sub_le_iff_le_add', add_comm, div_le_iff₀ hposR]
    linarith

theorem norm_factor (i : ℕ) {d : ℝ} (hd : d ^ 2 = 1) : ‖(⟨1, d / 2 ^ i⟩ : ℂ)‖ = gain i := by
  have hpow : ((2 : ℝ) ^ i) ^ 2 = 4 ^ i := by
    rw [← pow_mul, mul_comm, pow_mul]
    norm_num
  rw [Complex.norm_eq_sqrt_sq_add_sq, gain]
  simp only [div_pow, hd, hpow, one_pow]

/-- A turn differs from a multiplication by what the two divisions drop. -/
theorem norm_sub_le {v w : Turning} {i : ℕ} {d : ℝ} (hd : d ^ 2 = 1)
    (hx : (w.x : ℝ) = v.x - d * (v.y / 2 ^ i : ℤ)) (hy : (w.y : ℝ) = v.y + d * (v.x / 2 ^ i : ℤ)) :
    ‖point w - point v * ⟨1, d / 2 ^ i⟩‖ ≤ √2 := by
  obtain ⟨hxlo, hxhi⟩ := rounding v.x i
  obtain ⟨hylo, hyhi⟩ := rounding v.y i
  have hre : (point w - point v * ⟨1, d / 2 ^ i⟩).re =
      d * ((v.y : ℝ) / 2 ^ i - (v.y / 2 ^ i : ℤ)) := by
    simp only [point, Complex.sub_re, Complex.mul_re, hx]
    ring
  have him : (point w - point v * ⟨1, d / 2 ^ i⟩).im =
      -(d * ((v.x : ℝ) / 2 ^ i - (v.x / 2 ^ i : ℤ))) := by
    simp only [point, Complex.sub_im, Complex.mul_im, hy]
    ring
  -- Each division drops less than one.
  rw [Complex.norm_eq_sqrt_sq_add_sq, hre, him]
  apply Real.sqrt_le_sqrt
  rw [neg_sq, mul_pow, mul_pow, hd, one_mul, one_mul]
  nlinarith

theorem abs_norm_turn_sub_le (i : ℕ) (a : ℤ) (v : Turning) :
    |‖point (turn i a v)‖ - ‖point v‖ * gain i| ≤ √2 := by
  -- The side on which the vector turns is a sign.
  obtain ⟨d, hd, hx, hy⟩ : ∃ d : ℝ, d ^ 2 = 1 ∧
      ((turn i a v).x : ℝ) = v.x - d * (v.y / 2 ^ i : ℤ) ∧
        ((turn i a v).y : ℝ) = v.y + d * (v.x / 2 ^ i : ℤ) := by
    by_cases h : 0 ≤ v.z
    · exact ⟨1, by norm_num, by simp [turn, h], by simp [turn, h]⟩
    · exact ⟨-1, by norm_num, by simp [turn, h], by simp [turn, h, sub_eq_add_neg]⟩
  calc
    |‖point (turn i a v)‖ - ‖point v‖ * gain i|
        = |‖point (turn i a v)‖ - ‖point v * ⟨1, d / 2 ^ i⟩‖| := by
          rw [Complex.norm_mul, norm_factor i hd]
    _ ≤ ‖point (turn i a v) - point v * ⟨1, d / 2 ^ i⟩‖ := abs_norm_sub_norm_le _ _
    _ ≤ √2 := norm_sub_le hd hx hy

theorem mul_gain_sq (b : ℝ) (i : ℕ) : (b * gain i) ^ 2 = b ^ 2 * (1 + 1 / 4 ^ i) := by
  rw [mul_pow, gain, Real.sq_sqrt (by positivity)]

theorem mul_gain_le {b c : ℝ} {i : ℕ} (hc : 0 ≤ c) (h : b ^ 2 * (1 + 1 / 4 ^ i) ≤ c ^ 2) :
    b * gain i ≤ c := by
  rw [← mul_gain_sq] at h
  exact le_of_sq_le_sq h hc

theorem le_mul_gain {b c : ℝ} {i : ℕ} (hb : 0 ≤ b) (h : c ^ 2 ≤ b ^ 2 * (1 + 1 / 4 ^ i)) :
    c ≤ b * gain i := by
  rw [← mul_gain_sq] at h
  exact le_of_sq_le_sq h (mul_nonneg hb (Real.sqrt_nonneg _))

/-- Bounds on the length that leave room for the error at every turn. -/
theorem norm_turns_mem {a : ℕ → ℤ} {lo hi : ℕ → ℝ} {n : ℕ}
    (hlo : ∀ i < n, lo (i + 1) + √2 ≤ lo i * gain i)
    (hhi : ∀ i < n, hi i * gain i + √2 ≤ hi (i + 1)) {v : Turning}
    (hv : lo 0 ≤ ‖point v‖ ∧ ‖point v‖ ≤ hi 0) :
    lo n ≤ ‖point (turns a n v)‖ ∧ ‖point (turns a n v)‖ ≤ hi n := by
  induction n with
  | zero =>
      exact hv
  | succ n ih =>
      obtain ⟨hl, hh⟩ := ih (fun i hi => hlo i (by omega)) (fun i hi => hhi i (by omega))
      have hgain : 0 ≤ gain n := Real.sqrt_nonneg _
      have hstep := abs_le.1 (abs_norm_turn_sub_le n (a n) (turns a n v))
      have hl' := mul_le_mul_of_nonneg_right hl hgain
      have hh' := mul_le_mul_of_nonneg_right hh hgain
      rw [turns_succ]
      constructor
      · linarith [hlo n (by omega), hstep.1]
      · linarith [hhi n (by omega), hstep.2]

end

end Turning

end Lib
end Sdr
