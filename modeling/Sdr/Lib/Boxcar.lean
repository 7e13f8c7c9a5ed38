import Mathlib.Algebra.Order.BigOperators.Group.Finset
import Mathlib.Algebra.Order.Ring.Int
import Mathlib.Algebra.Ring.GeomSum
import Mathlib.RingTheory.PowerSeries.Basic
import Mathlib.Tactic.Ring

/-!
# Boxcar — running sums, lagged differences and moving sums

A cascade of running sums followed by as many differences over a lag of `R` terms is a cascade of
sums over the last `R` terms.  As power series, a running sum divides by `1 - X`, a lagged difference
multiplies by `1 - X ^ R`, and the quotient of the two is the sum of `R` powers of `X`:

* `summed x k` — `k` running sums in a row;
* `lagged R f k` — `k` lagged differences in a row;
* `conv` and `ones` — convolution, and the sequence of `R` ones;
* `lagged_summed` — the identity between them, with one term of delay for every running sum.

Everything is over a commutative ring, so a register that wraps around is no exception.
-/

namespace Sdr
namespace Lib

open Finset
open PowerSeries (X coeff coeff_mul coeff_succ_X_mul coeff_X_pow coeff_X_pow_mul')

universe u

section Ring

variable {A : Type u} [CommRing A]

/-! ## Sequences -/

/-- The sum of the terms before each place. -/
def runningSum (x : ℕ → A) (n : ℕ) : A :=
  ∑ k ∈ range n, x k

def summed (x : ℕ → A) : ℕ → ℕ → A
  | 0 => x
  | k + 1 => runningSum (summed x k)

/-- The term `R` places back, zero before the start. -/
def back (R : ℕ) (f : ℕ → A) (n : ℕ) : A :=
  if R ≤ n then f (n - R) else 0

def lagged (R : ℕ) (f : ℕ → A) : ℕ → ℕ → A
  | 0 => f
  | k + 1 => fun n => lagged R f k n - back R (lagged R f k) n

def conv (f g : ℕ → A) (n : ℕ) : A :=
  ∑ p ∈ antidiagonal n, f p.1 * g p.2

def ones (R : ℕ) (j : ℕ) : A :=
  if j < R then 1 else 0

/-- The running sum that stands before term `n + 1`. -/
theorem summed_succ (x : ℕ → A) (k n : ℕ) :
    summed x (k + 1) (n + 1) = summed x (k + 1) n + summed x k n :=
  sum_range_succ _ _

theorem summed_zero (x : ℕ → A) (k : ℕ) : summed x (k + 1) 0 = 0 :=
  sum_range_zero (summed x k)

/-! ## Their power series -/

noncomputable def series (f : ℕ → A) : PowerSeries A :=
  PowerSeries.mk f

@[simp] theorem coeff_series (f : ℕ → A) (n : ℕ) : coeff n (series f) = f n :=
  PowerSeries.coeff_mk n f

theorem series_runningSum (x : ℕ → A) : (1 - X) * series (runningSum x) = X * series x := by
  ext n
  rw [sub_mul, one_mul, map_sub, coeff_series]
  cases n with
  | zero =>
      simp [runningSum]
  | succ n =>
      rw [coeff_succ_X_mul, coeff_succ_X_mul, coeff_series, coeff_series, runningSum, sum_range_succ]
      exact add_sub_cancel_left _ _

theorem series_summed (x : ℕ → A) (k : ℕ) :
    (1 - X) ^ k * series (summed x k) = X ^ k * series x := by
  induction k with
  | zero =>
      simp [summed]
  | succ k ih =>
      calc
        (1 - X) ^ (k + 1) * series (summed x (k + 1))
            = (1 - X) ^ k * ((1 - X) * series (runningSum (summed x k))) := by
              rw [pow_succ, mul_assoc]
              rfl
        _ = X * ((1 - X) ^ k * series (summed x k)) := by
              rw [series_runningSum]
              ring
        _ = X ^ (k + 1) * series x := by
              rw [ih]
              ring

theorem series_lagged (R : ℕ) (f : ℕ → A) (k : ℕ) :
    series (lagged R f k) = (1 - X ^ R) ^ k * series f := by
  induction k with
  | zero =>
      simp [lagged]
  | succ k ih =>
      have hstep : series (lagged R f (k + 1)) = (1 - X ^ R) * series (lagged R f k) := by
        ext n
        rw [sub_mul, one_mul, map_sub, coeff_X_pow_mul', coeff_series, coeff_series, coeff_series]
        rfl
      rw [hstep, ih]
      ring

theorem series_conv (f g : ℕ → A) : series (conv f g) = series f * series g := by
  ext n
  simp [coeff_mul, conv]

theorem series_ones (R : ℕ) : series (ones R : ℕ → A) = ∑ i ∈ range R, X ^ i := by
  ext n
  simp [ones, coeff_X_pow]

/-- Differences undo sums, but for the terms that the lag leaves in. -/
theorem lagged_summed (R : ℕ) (x : ℕ → A) (k n : ℕ) :
    lagged R (summed x k) k n = coeff n (X ^ k * (series (ones R) ^ k * series x)) := by
  have hones : series (ones R : ℕ → A) * (1 - X) = 1 - X ^ R := by
    rw [series_ones]
    exact geom_sum_mul_neg X R
  have hseries : series (lagged R (summed x k) k) = X ^ k * (series (ones R) ^ k * series x) := by
    calc
      series (lagged R (summed x k) k)
          = series (ones R) ^ k * ((1 - X) ^ k * series (summed x k)) := by
            rw [series_lagged, ← hones, mul_pow, mul_assoc]
      _ = X ^ k * (series (ones R) ^ k * series x) := by
            rw [series_summed]
            ring
  rw [← hseries, coeff_series]

/-! ## Three stages -/

/-- Three moving sums in a row, of a sequence that is zero before its start. -/
theorem lagged_summed_three (R : ℕ) (x : ℕ → A) (n : ℕ) :
    lagged R (summed x 3) 3 n =
      back 3 (conv (conv (ones R) (conv (ones R) (ones R))) x) n := by
  rw [lagged_summed, coeff_X_pow_mul', back]
  have hcube : series (ones R : ℕ → A) ^ 3 * series x =
      series (conv (conv (ones R) (conv (ones R) (ones R))) x) := by
    rw [series_conv, series_conv, series_conv]
    ring
  rw [hcube, coeff_series]

theorem conv_assoc (f g h : ℕ → A) : conv (conv f g) h = conv f (conv g h) := by
  have hseries : series (conv (conv f g) h) = series (conv f (conv g h)) := by
    simp only [series_conv, mul_assoc]
  funext n
  simpa using congrArg (coeff n) hseries

theorem conv_eq_sum_range (f g : ℕ → A) (n : ℕ) :
    conv f g n = ∑ j ∈ range (n + 1), f j * g (n - j) :=
  Finset.Nat.sum_antidiagonal_eq_sum_range_succ_mk _ n

/-- The kernel ends where its factors do. -/
theorem conv_eq_zero {f g : ℕ → A} {F G : ℕ} (hf : ∀ j, F ≤ j → f j = 0)
    (hg : ∀ j, G ≤ j → g j = 0) {n : ℕ} (hn : F + G ≤ n + 1) : conv f g n = 0 := by
  refine sum_eq_zero ?_
  rintro ⟨a, b⟩ hab
  rw [HasAntidiagonal.mem_antidiagonal] at hab
  by_cases ha : F ≤ a
  · simp [hf a ha]
  · simp [hg b (by omega)]

end Ring

/-! ## Bounds -/

theorem abs_conv_ones_le {R : ℕ} {x : ℕ → ℤ} {M : ℤ} (hx : ∀ k, |x k| ≤ M) (n : ℕ) :
    |conv (ones R) x n| ≤ R * M := by
  have hM : 0 ≤ M := le_trans (abs_nonneg _) (hx 0)
  have hterm : ∀ j, |ones R j * x (n - j)| ≤ if j < R then M else 0 := by
    intro j
    unfold ones
    split_ifs
    · simpa using hx (n - j)
    · simp
  calc
    |conv (ones R) x n| = |∑ j ∈ range (n + 1), ones R j * x (n - j)| := by
          rw [conv_eq_sum_range]
    _ ≤ ∑ j ∈ range (n + 1), |ones R j * x (n - j)| := abs_sum_le_sum_abs _ _
    _ ≤ ∑ j ∈ range (n + 1), if j < R then M else 0 := sum_le_sum (fun j _ => hterm j)
    _ = #{j ∈ range (n + 1) | j < R} * M := by
          rw [← sum_filter, sum_const, nsmul_eq_mul]
    _ ≤ R * M := by
          have hcard : #{j ∈ range (n + 1) | j < R} ≤ R := by
            calc
              #{j ∈ range (n + 1) | j < R} ≤ #(range R) :=
                card_le_card (fun j hj => by simpa using (mem_filter.1 hj).2)
              _ = R := card_range R
          exact mul_le_mul_of_nonneg_right (by exact_mod_cast hcard) hM

end Lib
end Sdr
