import Mathlib.Analysis.SpecialFunctions.Complex.Arctan
import Mathlib.Analysis.SpecialFunctions.Trigonometric.Bounds
import Mathlib.Analysis.SpecificLimits.Normed
import Sdr.Lib.Cordic

/-!
# CordicAngle — where the turns of a vector end

Up to rounding, turn `i` multiplies by `gain i` and turns by `arctan (1 / 2 ^ i)`.  So a vector that
starts on the real axis ends near `K * exp (θ * I)`, where `θ` is the angle by which the residual went
down and `K` the product of the gains (`norm_turns_sub_le`).  What is lost on the way is `√2` for the
rounding of each turn, grown by the turns after it, and the error of the constants that stand for the
angles (`abs_arctan_sub_arctanSum_le` compares
them with a finite sum).
-/

namespace Sdr
namespace Lib
namespace Turning

noncomputable section

/-- The angle of turn `i`. -/
def turnAngle (i : ℕ) : ℝ :=
  Real.arctan (1 / 2 ^ i)

/-- The unit vector at the angle `θ`. -/
def heading (θ : ℝ) : ℂ :=
  Complex.exp (θ * Complex.I)

@[simp] theorem heading_re (θ : ℝ) : (heading θ).re = Real.cos θ := by
  rw [heading, Complex.exp_ofReal_mul_I_re]

@[simp] theorem heading_im (θ : ℝ) : (heading θ).im = Real.sin θ := by
  rw [heading, Complex.exp_ofReal_mul_I_im]

@[simp] theorem heading_zero : heading 0 = 1 := by
  simp [heading]

@[simp] theorem norm_heading (θ : ℝ) : ‖heading θ‖ = 1 :=
  Complex.norm_exp_ofReal_mul_I θ

theorem heading_add (θ φ : ℝ) : heading (θ + φ) = heading θ * heading φ := by
  rw [heading, heading, heading, ← Complex.exp_add]
  push_cast
  ring_nf

/-- The chord is shorter than the arc. -/
theorem norm_heading_sub_le (θ φ : ℝ) : ‖heading θ - heading φ‖ ≤ |θ - φ| := by
  have hsplit : heading θ - heading φ = heading φ * (heading (θ - φ) - 1) := by
    rw [mul_sub, mul_one, ← heading_add]
    ring_nf
  have hchord := Real.norm_exp_I_mul_ofReal_sub_one_le (x := θ - φ)
  rw [hsplit, norm_mul, norm_heading, one_mul, heading, mul_comm]
  exact hchord

/-! ## One turn -/

/-- The factor of a turn, in polar form. -/
theorem factor_eq {d : ℝ} (hd : d = 1 ∨ d = -1) (i : ℕ) :
    (⟨1, d / 2 ^ i⟩ : ℂ) = gain i * heading (d * turnAngle i) := by
  have hpow : ((2 : ℝ) ^ i) ^ 2 = 4 ^ i := by
    rw [← pow_mul, mul_comm, pow_mul]
    norm_num
  have hgain : √(1 + (1 / 2 ^ i) ^ 2) = gain i := by
    rw [gain, div_pow, one_pow, hpow]
  have hpos : 0 < gain i := Real.sqrt_pos.2 (by positivity)
  have hcos : Real.cos (turnAngle i) = 1 / gain i := by
    rw [turnAngle, Real.cos_arctan, hgain]
  have hsin : Real.sin (turnAngle i) = 1 / 2 ^ i / gain i := by
    rw [turnAngle, Real.sin_arctan, hgain]
  rcases hd with rfl | rfl
  · apply Complex.ext
    · simp only [Complex.re_ofReal_mul, heading_re, one_mul, hcos]
      field_simp
    · simp only [Complex.im_ofReal_mul, heading_im, one_mul, hsin]
      field_simp
  · apply Complex.ext
    · simp only [Complex.re_ofReal_mul, heading_re, neg_one_mul, Real.cos_neg, hcos]
      field_simp
    · simp only [Complex.im_ofReal_mul, heading_im, neg_one_mul, Real.sin_neg, hsin]
      field_simp

/-- The side on which a turn goes is a sign. -/
theorem turn_side (i : ℕ) (a : ℤ) (v : Turning) :
    ∃ d : ℝ, (d = 1 ∨ d = -1) ∧
      ((turn i a v).x : ℝ) = v.x - d * (v.y / 2 ^ i : ℤ) ∧
        ((turn i a v).y : ℝ) = v.y + d * (v.x / 2 ^ i : ℤ) ∧
          ((turn i a v).z : ℝ) = v.z - d * a := by
  by_cases h : 0 ≤ v.z
  · exact ⟨1, Or.inl rfl, by simp [turn, h], by simp [turn, h], by simp [turn, h]⟩
  · exact ⟨-1, Or.inr rfl, by simp [turn, h], by simp [turn, h, sub_eq_add_neg], by simp [turn, h]⟩

/-- A unit of `z` stands for the angle `u`.  The distance from where the vector should be grows with
the length, and by what the divisions and the constant `a` lose. -/
theorem norm_turn_sub_le {K φ E u ε : ℝ} {i : ℕ} {a : ℤ} {v : Turning} (hK : 0 ≤ K)
    (hv : ‖point v - K * heading φ‖ ≤ E) (ha : |u * a - turnAngle i| ≤ ε) :
    ‖point (turn i a v) - (K * gain i : ℝ) * heading (φ + u * (v.z - (turn i a v).z))‖ ≤
      E * gain i + √2 + K * gain i * ε := by
  obtain ⟨d, hd, hx, hy, hz⟩ := turn_side i a v
  have hsq : d ^ 2 = 1 := by
    rcases hd with rfl | rfl <;> norm_num
  have habs : |d| = 1 := by
    rcases hd with rfl | rfl <;> simp
  have hgain : 0 ≤ gain i := Real.sqrt_nonneg _
  have hangle : φ + u * (v.z - (turn i a v).z) = φ + d * (u * a) := by
    rw [hz]
    ring
  -- The divisions, the error so far, and the constant.
  have hround := norm_sub_le hsq hx hy
  have hgrown : ‖(point v - K * heading φ) * ⟨1, d / 2 ^ i⟩‖ ≤ E * gain i := by
    rw [norm_mul, norm_factor i hsq]
    exact mul_le_mul_of_nonneg_right hv hgain
  have hchord : ‖heading (d * turnAngle i) - heading (d * (u * a))‖ ≤ ε := by
    refine le_trans (norm_heading_sub_le _ _) ?_
    rw [← mul_sub, abs_mul, habs, one_mul, abs_sub_comm]
    exact ha
  have hconst : ‖(K * gain i : ℝ) * heading φ *
      (heading (d * turnAngle i) - heading (d * (u * a)))‖ ≤ K * gain i * ε := by
    rw [norm_mul, norm_mul, norm_heading, mul_one, Complex.norm_real, Real.norm_eq_abs,
      abs_of_nonneg (mul_nonneg hK hgain)]
    exact mul_le_mul_of_nonneg_left hchord (mul_nonneg hK hgain)
  have hsum : point (turn i a v) - (K * gain i : ℝ) * heading (φ + d * (u * a)) =
      (point (turn i a v) - point v * ⟨1, d / 2 ^ i⟩) +
        ((point v - K * heading φ) * ⟨1, d / 2 ^ i⟩ +
          (K * gain i : ℝ) * heading φ *
            (heading (d * turnAngle i) - heading (d * (u * a)))) := by
    rw [factor_eq hd, heading_add]
    push_cast
    ring
  rw [hangle, hsum]
  calc
    _ ≤ √2 + (E * gain i + K * gain i * ε) :=
        norm_add_le_of_le hround (norm_add_le_of_le hgrown hconst)
    _ = E * gain i + √2 + K * gain i * ε := by ring

/-! ## The turns -/

/-- The growth of the first `n` turns. -/
def growth (n : ℕ) : ℝ :=
  ∏ i ∈ Finset.range n, gain i

theorem growth_nonneg (n : ℕ) : 0 ≤ growth n :=
  Finset.prod_nonneg (fun _ _ => Real.sqrt_nonneg _)

theorem growth_sq (n : ℕ) : growth n ^ 2 = ∏ i ∈ Finset.range n, (1 + 1 / 4 ^ i : ℝ) := by
  rw [growth, ← Finset.prod_pow]
  exact Finset.prod_congr rfl (fun i _ => Real.sq_sqrt (by positivity))

theorem growth_succ (n : ℕ) : growth (n + 1) = growth n * gain n :=
  Finset.prod_range_succ _ _

theorem growth_mono : Monotone growth := by
  refine monotone_nat_of_le_succ (fun n => ?_)
  have hone : 1 ≤ gain n := Real.one_le_sqrt.2 (le_add_of_nonneg_right (by positivity))
  rw [growth_succ]
  exact le_mul_of_one_le_right (growth_nonneg n) hone

/-- `E` leaves room for what every turn adds to the error. -/
theorem norm_turns_sub_le {a : ℕ → ℤ} {E : ℕ → ℝ} {K u ε : ℝ} {n : ℕ} (hK : 0 ≤ K)
    (ha : ∀ i < n, |u * a i - turnAngle i| ≤ ε)
    (hE : ∀ i < n, E i * gain i + √2 + K * growth (i + 1) * ε ≤ E (i + 1)) {v : Turning}
    (hv : ‖point v - K‖ ≤ E 0) :
    ‖point (turns a n v) - (K * growth n : ℝ) * heading (u * (v.z - (turns a n v).z))‖ ≤ E n := by
  induction n with
  | zero =>
      simpa [growth, turns, through] using hv
  | succ n ih =>
      have hprev := ih (fun i hi => ha i (by omega)) (fun i hi => hE i (by omega))
      have hstep := norm_turn_sub_le (mul_nonneg hK (growth_nonneg n)) hprev (ha n (by omega))
      have hgrowth : K * growth n * gain n = K * growth (n + 1) := by
        rw [growth_succ, mul_assoc]
      have hangle : u * (v.z - (turns a n v).z) +
          u * ((turns a n v).z - (turn n (a n) (turns a n v)).z) =
            u * (v.z - (turns a (n + 1) v).z) := by
        rw [turns_succ]
        ring
      rw [hgrowth, hangle] at hstep
      exact le_trans hstep (hE n (by omega))

end

/-! ## The constants -/

/-- The first `n` terms of the series of `arctan`. -/
def arctanSum (x : ℚ) (n : ℕ) : ℚ :=
  ∑ i ∈ Finset.range n, (-1) ^ i * (x ^ (2 * i + 1) / (2 * i + 1 : ℕ))

theorem cast_arctanSum (x : ℚ) (n : ℕ) :
    (arctanSum x n : ℝ) =
      ∑ i ∈ Finset.range n, (-1) ^ i * ((x : ℝ) ^ (2 * i + 1) / (2 * i + 1 : ℕ)) := by
  simp [arctanSum]

theorem abs_arctan_sub_arctanSum_le {x : ℚ} (hx : 0 ≤ x) (hlt : x < 1) (n : ℕ) :
    |Real.arctan x - arctanSum x n| ≤ (x ^ (2 * n + 1) / (2 * n + 1 : ℕ) : ℚ) := by
  have hx' : (0 : ℝ) ≤ x := by exact_mod_cast hx
  have hlt' : (x : ℝ) < 1 := by exact_mod_cast hlt
  have hseries := Real.hasSum_arctan (x := (x : ℝ)) (by rwa [Real.norm_eq_abs, abs_of_nonneg hx'])
  have hterms : ∀ i : ℕ, (-1 : ℝ) ^ i * (x : ℝ) ^ (2 * i + 1) / (2 * i + 1 : ℕ) =
      (-1) ^ i * ((x : ℝ) ^ (2 * i + 1) / (2 * i + 1 : ℕ)) := fun i => mul_div_assoc _ _ _
  simp only [hterms] at hseries
  have hanti : Antitone fun i : ℕ => (x : ℝ) ^ (2 * i + 1) / (2 * i + 1 : ℕ) := by
    intro i j hij
    have hpow : (x : ℝ) ^ (2 * j + 1) ≤ (x : ℝ) ^ (2 * i + 1) :=
      pow_le_pow_of_le_one hx' hlt'.le (by omega)
    have hden : ((2 * i + 1 : ℕ) : ℝ) ≤ (2 * j + 1 : ℕ) := by
      exact_mod_cast (by omega : 2 * i + 1 ≤ 2 * j + 1)
    exact div_le_div₀ (pow_nonneg hx' _) hpow (by positivity) hden
  -- The series converges absolutely, below a geometric one.
  have hsum : Summable fun i : ℕ => (x : ℝ) ^ (2 * i + 1) / (2 * i + 1 : ℕ) := by
    refine Summable.of_nonneg_of_le (fun i => by positivity) (fun i => ?_)
      (summable_geometric_of_lt_one hx' hlt')
    have hle : (x : ℝ) ^ (2 * i + 1) ≤ (x : ℝ) ^ i := pow_le_pow_of_le_one hx' hlt'.le (by omega)
    have hone : (1 : ℝ) ≤ (2 * i + 1 : ℕ) := by
      exact_mod_cast (by omega : 1 ≤ 2 * i + 1)
    exact le_trans (div_le_self (pow_nonneg hx' _) hone) hle
  have hbound := alternating_series_error_bound _ hanti hsum n
  rw [hseries.tsum_eq] at hbound
  rw [cast_arctanSum]
  push_cast at hbound ⊢
  exact hbound

end Turning
end Lib
end Sdr
