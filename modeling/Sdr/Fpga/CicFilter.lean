import Sdr.Lib.Boxcar
import Sdr.Lib.FixedPoint
import Sdr.Lib.Machine
import Sdr.Fpga.CicDecimator

/-!
# CicFilter — what the decimator computes, and when it stalls

At a constant rate `R` the decimator is a filter: the integrators hold running sums of the inputs, each
one input late, and the combs hold lagged differences of the last one, so an output is a moving sum.
All of it is arithmetic modulo `2 ^ ACC_WIDTH`, where the integrators may wrap as often as they like.

The rate counter is compared with the rate for equality.  A rate that is lowered below the counter is
met only after the counter has gone around, so the bound on the time to the next output holds exactly
while the counter is below the rate (`output_within_rate_iff`).
-/

namespace Sdr
namespace Fpga
namespace CicDecimator

open Lib

variable {inWidth accWidth : Nat}

/-! ## Runs -/

/-- The inputs of one cycle out of reset. -/
structure Inputs (inWidth : Nat) where
  sampleIn : BitVec inWidth
  validIn : Bool
  decimRate : BitVec 16

def clock (s : State accWidth) (i : Inputs inWidth) : State accWidth :=
  step s false i.sampleIn i.validIn i.decimRate

/-- The samples of the cycles with `valid_in`. -/
def validInputs (is : List (Inputs inWidth)) : List Int :=
  (is.filter Inputs.validIn).map (fun i => i.sampleIn.toInt)

/-- The decimator with the number of valid inputs so far. -/
def numbered (sn : State accWidth × Nat) (i : Inputs inWidth) : State accWidth × Nat :=
  (clock sn.1 i, sn.2 + i.validIn.toNat)

/-- What an edge puts out, with the number of the valid input it comes with. -/
def emitted (sn : State accWidth × Nat) (i : Inputs inWidth) : List (Nat × BitVec accWidth) :=
  if (clock sn.1 i).validOut then [(sn.2, (clock sn.1 i).sampleOut)] else []

def outputs (stages accWidth : Nat) (is : List (Inputs inWidth)) : List (Nat × BitVec accWidth) :=
  emits numbered emitted (resetState stages accWidth, 0) is

theorem validInputs_snoc (is : List (Inputs inWidth)) (i : Inputs inWidth) :
    validInputs (is ++ [i]) = validInputs is ++ if i.validIn then [i.sampleIn.toInt] else [] := by
  cases h : i.validIn <;> simp [validInputs, h]

/-! ## The edge of a valid input -/

theorem ofInt_sub (a b : Int) :
    BitVec.ofInt accWidth (a - b) = BitVec.ofInt accWidth a - BitVec.ofInt accWidth b := by
  rw [Int.sub_eq_add_neg, BitVec.ofInt_add, BitVec.ofInt_neg, BitVec.sub_eq_add_neg]

/-- Integrators that hold running sums hold the next ones after the edge. -/
theorem zipWith_summed (x : ℕ → ℤ) (n m k : Nat) :
    List.zipWith (· + ·)
        ((List.range' k m).map (fun j => BitVec.ofInt accWidth (summed x (j + 1) n)))
        (BitVec.ofInt accWidth (summed x k n) ::
          (List.range' k m).map (fun j => BitVec.ofInt accWidth (summed x (j + 1) n))) =
      (List.range' k m).map (fun j => BitVec.ofInt accWidth (summed x (j + 1) (n + 1))) := by
  induction m generalizing k with
  | zero =>
      rfl
  | succ m ih =>
      have hhead : BitVec.ofInt accWidth (summed x (k + 1) n) +
          BitVec.ofInt accWidth (summed x k n) =
            BitVec.ofInt accWidth (summed x (k + 1) (n + 1)) := by
        rw [summed_succ, BitVec.ofInt_add]
      simpa [List.range'_succ, hhead] using ih (k + 1)

/-- Combs whose delays are one lag behind take one difference each. -/
theorem comb_lagged (R : Nat) (f : ℕ → ℤ) (n m k : Nat) :
    comb (BitVec.ofInt accWidth (lagged R f k n))
        ((List.range' k m).map (fun j => BitVec.ofInt accWidth (back R (lagged R f j) n))) =
      ((List.range' k m).map (fun j => BitVec.ofInt accWidth (lagged R f j n)),
        BitVec.ofInt accWidth (lagged R f (k + m) n)) := by
  induction m generalizing k with
  | zero =>
      rfl
  | succ m ih =>
      have hnext : BitVec.ofInt accWidth (lagged R f k n) -
          BitVec.ofInt accWidth (back R (lagged R f k) n) =
            BitVec.ofInt accWidth (lagged R f (k + 1) n) := by
        rw [← ofInt_sub]
        rfl
      have hcount : k + (m + 1) = k + 1 + m := by omega
      rw [List.range'_succ, List.map_cons, List.map_cons, comb, hnext, ih (k + 1), hcount]

/-! ## The filter -/

/-- The last input of the block that input `n` is in; there the next output appears. -/
def blockEnd (R n : Nat) : Nat :=
  n / R * R + (R - 1)

section Block

variable {R n : Nat}

theorem succ_div_mod_of_more (hR : 0 < R) (h : n % R ≠ R - 1) :
    (n + 1) / R = n / R ∧ (n + 1) % R = n % R + 1 := by
  have hmod := Nat.mod_lt n hR
  have hdm := Nat.div_add_mod n R
  exact (Nat.div_mod_unique hR).2 ⟨by omega, by omega⟩

theorem succ_div_mod_of_last (hR : 0 < R) (h : n % R = R - 1) :
    (n + 1) / R = n / R + 1 ∧ (n + 1) % R = 0 := by
  have hdm := Nat.div_add_mod n R
  exact (Nat.div_mod_unique hR).2 ⟨by rw [Nat.mul_add]; omega, hR⟩

theorem blockEnd_of_last (h : n % R = R - 1) : blockEnd R n = n := by
  rw [blockEnd, ← h, Nat.div_add_mod']

theorem blockEnd_succ_of_more (hR : 0 < R) (h : n % R ≠ R - 1) :
    blockEnd R (n + 1) = blockEnd R n := by
  rw [blockEnd, blockEnd, (succ_div_mod_of_more hR h).1]

theorem blockEnd_succ_of_last (hR : 0 < R) (h : n % R = R - 1) : blockEnd R (n + 1) = n + R := by
  have hend := blockEnd_of_last h
  rw [blockEnd] at hend
  rw [blockEnd, (succ_div_mod_of_last hR h).1, Nat.add_mul]
  omega

end Block

/-- The registers after `n` inputs of the sequence `x`. -/
structure Filters (x : ℕ → ℤ) (R stages n : Nat) (s : State accWidth) : Prop where
  integrator : s.integrator =
    (List.range' 0 stages).map (fun k => BitVec.ofInt accWidth (summed x (k + 1) n))
  combDelay : s.combDelay =
    (List.range' 0 stages).map (fun k =>
      BitVec.ofInt accWidth (back R (lagged R (summed x stages) k) (blockEnd R n)))
  decimCount : s.decimCount.toNat = n % R

theorem filters_resetState (x : ℕ → ℤ) {R : Nat} (hR : 0 < R) (stages : Nat) :
    Filters x R stages 0 (resetState stages accWidth) where
  integrator := by
    simp [resetState, summed_zero, List.map_const']
  combDelay := by
    have hback : ∀ k, back R (lagged R (summed x stages) k) (blockEnd R 0) = 0 := by
      intro k
      have hlt : ¬R ≤ blockEnd R 0 := by
        simp only [blockEnd, Nat.zero_div]
        omega
      rw [back, if_neg hlt]
    simp [resetState, hback, List.map_const']
  decimCount := by
    simp [resetState]

section Step

variable {x : ℕ → ℤ} {rate : BitVec 16} {stages n : Nat} {s : State accWidth} {i : Inputs inWidth}

theorem decimSafe_toNat (hrate : rate ≠ 0) : (decimSafe rate - 1).toNat = rate.toNat - 1 := by
  have hle : 1#16 ≤ rate := BitVec.toNat_pos_of_ne_zero hrate
  rw [decimSafe, if_neg hrate]
  exact BitVec.toNat_sub_of_le hle

theorem Filters.fires_iff (h : Filters x rate.toNat stages n s) (hrate : rate ≠ 0) :
    decimFire s true rate = true ↔ n % rate.toNat = rate.toNat - 1 := by
  rw [decimFire, Bool.true_and, beq_iff_eq, BitVec.toNat_inj.symm, decimSafe_toNat hrate,
    h.decimCount]

theorem Filters.integrate (h : Filters x rate.toNat stages n s) (hx : x n = i.sampleIn.toInt) :
    CicDecimator.integrate s i.sampleIn =
      (List.range' 0 stages).map (fun k => BitVec.ofInt accWidth (summed x (k + 1) (n + 1))) := by
  -- The first integrator adds the sample itself, the others what the one before held.
  have hinput : i.sampleIn.signExtend accWidth = BitVec.ofInt accWidth (summed x 0 n) := by
    rw [summed, hx]
    rfl
  rw [CicDecimator.integrate, h.integrator, hinput]
  exact zipWith_summed x n stages 0

theorem Filters.comb (h : Filters x rate.toNat stages n s) (hstages : 0 < stages)
    (hend : blockEnd rate.toNat n = n) :
    CicDecimator.comb (s.integrator.getLastD 0) s.combDelay =
      ((List.range' 0 stages).map (fun k =>
          BitVec.ofInt accWidth (lagged rate.toNat (summed x stages) k n)),
        BitVec.ofInt accWidth (lagged rate.toNat (summed x stages) stages n)) := by
  have hlast : s.integrator.getLastD 0 =
      BitVec.ofInt accWidth (lagged rate.toNat (summed x stages) 0 n) := by
    obtain ⟨m, rfl⟩ : ∃ m, stages = m + 1 := ⟨stages - 1, by omega⟩
    rw [h.integrator, List.range'_concat]
    simp [lagged]
  rw [hlast, h.combDelay, hend]
  simpa using comb_lagged rate.toNat (summed x stages) n stages 0

/-- The edge of an input that does not end its block. -/
theorem Filters.count (h : Filters x rate.toNat stages n s) (hrate : rate ≠ 0)
    (hi : i.validIn = true) (hr : i.decimRate = rate) (hx : x n = i.sampleIn.toInt)
    (hmore : n % rate.toNat ≠ rate.toNat - 1) :
    (clock s i).validOut = false ∧ Filters x rate.toNat stages (n + 1) (clock s i) := by
  have hnot : decimFire s true rate = false := by
    rw [← Bool.not_eq_true, h.fires_iff hrate]
    exact hmore
  have hpos : 0 < rate.toNat := BitVec.toNat_pos_of_ne_zero hrate
  have hlt := rate.isLt
  have hmod := Nat.mod_lt n hpos
  have hclock : clock s i =
      { s with
        integrator := CicDecimator.integrate s i.sampleIn
        decimCount := s.decimCount + 1
        validOut := false } := by
    simp [clock, step, hi, hr, hnot]
  rw [hclock]
  refine ⟨rfl, h.integrate hx, ?_, ?_⟩
  · rw [h.combDelay, blockEnd_succ_of_more hpos hmore]
  · rw [BitVec.toNat_add, h.decimCount, (succ_div_mod_of_more hpos hmore).2]
    exact Nat.mod_eq_of_lt (by simp; omega)

/-- The edge of the last input of a block. -/
theorem Filters.fire (h : Filters x rate.toNat stages n s) (hstages : 0 < stages) (hrate : rate ≠ 0)
    (hi : i.validIn = true) (hr : i.decimRate = rate) (hx : x n = i.sampleIn.toInt)
    (hlast : n % rate.toNat = rate.toNat - 1) :
    (clock s i).validOut = true ∧
      (clock s i).sampleOut =
        BitVec.ofInt accWidth (lagged rate.toNat (summed x stages) stages n) ∧
        Filters x rate.toNat stages (n + 1) (clock s i) := by
  have hfire : decimFire s true rate = true := (h.fires_iff hrate).2 hlast
  have hpos : 0 < rate.toNat := BitVec.toNat_pos_of_ne_zero hrate
  have hblock := blockEnd_succ_of_last hpos hlast
  have hclock : clock s i =
      { integrator := CicDecimator.integrate s i.sampleIn
        combDelay := (CicDecimator.comb (s.integrator.getLastD 0) s.combDelay).1
        decimCount := 0
        sampleOut := (CicDecimator.comb (s.integrator.getLastD 0) s.combDelay).2
        validOut := true } := by
    simp [clock, step, hi, hr, hfire]
  rw [hclock, h.comb hstages (blockEnd_of_last hlast)]
  refine ⟨rfl, rfl, h.integrate hx, ?_, ?_⟩
  · -- What was the newest value is one lag behind the next output.
    simp [hblock, back]
  · exact (succ_div_mod_of_last hpos hlast).2.symm

theorem Filters.clock_idle (h : Filters x rate.toNat stages n s) (hi : i.validIn = false) :
    (clock s i).validOut = false ∧ Filters x rate.toNat stages n (clock s i) := by
  have hclock : clock s i = { s with validOut := false } := by
    simp [clock, step, hi]
  rw [hclock]
  exact ⟨rfl, h.integrator, h.combDelay, h.decimCount⟩

end Step

/-! ## Runs at a constant rate -/

/-- The sequence has the valid inputs of the run as its first terms. -/
def Agrees (x : ℕ → ℤ) (is : List (Inputs inWidth)) : Prop :=
  ∀ k v, (validInputs is)[k]? = some v → x k = v

/-- The outputs that the first `n` inputs of the sequence give. -/
def decimated (x : ℕ → ℤ) (R stages accWidth n : Nat) : List (Nat × BitVec accWidth) :=
  (List.range (n / R)).map (fun m =>
    (m * R + (R - 1),
      BitVec.ofInt accWidth (lagged R (summed x stages) stages (m * R + (R - 1)))))

structure Decimates (x : ℕ → ℤ) (R stages : Nat) (is : List (Inputs inWidth))
    (sn : State accWidth × Nat) : Prop where
  count : sn.2 = (validInputs is).length
  filters : Filters x R stages sn.2 sn.1
  outputs : CicDecimator.outputs stages accWidth is = decimated x R stages accWidth sn.2

theorem Agrees.of_snoc {x : ℕ → ℤ} {is : List (Inputs inWidth)} {i : Inputs inWidth}
    (h : Agrees x (is ++ [i])) : Agrees x is := by
  intro k v hk
  apply h
  rw [validInputs_snoc]
  exact List.getElem?_append_left (List.getElem?_eq_some_iff.1 hk).1 ▸ hk

theorem Agrees.last {x : ℕ → ℤ} {is : List (Inputs inWidth)} {i : Inputs inWidth}
    (h : Agrees x (is ++ [i])) (hi : i.validIn = true) :
    x (validInputs is).length = i.sampleIn.toInt := by
  apply h
  simp [validInputs_snoc, hi]

theorem decimates_snoc {x : ℕ → ℤ} {rate : BitVec 16} (hrate : rate ≠ 0) {stages : Nat}
    (hstages : 0 < stages) {is : List (Inputs inWidth)} {i : Inputs inWidth}
    (hr : i.decimRate = rate) (hx : Agrees x (is ++ [i]))
    (h : Decimates x rate.toNat stages is
      (runFrom numbered (resetState stages accWidth, 0) is)) :
    Decimates x rate.toNat stages (is ++ [i])
      (numbered (runFrom numbered (resetState stages accWidth, 0) is) i) := by
  have hpos : 0 < rate.toNat := BitVec.toNat_pos_of_ne_zero hrate
  generalize hsn : runFrom numbered (resetState stages accWidth, 0) is = sn at h
  have houtputs : CicDecimator.outputs stages accWidth (is ++ [i]) =
      decimated x rate.toNat stages accWidth sn.2 ++ emitted sn i := by
    rw [CicDecimator.outputs, emits_snoc, hsn, ← h.outputs]
    rfl
  have hcount : (numbered sn i).2 = (validInputs (is ++ [i])).length := by
    rw [validInputs_snoc, numbered, h.count]
    cases i.validIn <;> simp
  -- An idle cycle, a cycle that ends a block, and any other.
  cases hi : i.validIn with
  | false =>
      have hidle := h.filters.clock_idle hi
      refine ⟨hcount, ?_, ?_⟩
      · simpa [numbered, hi] using hidle.2
      · simpa [numbered, emitted, hi, hidle.1] using houtputs
  | true =>
      have hxn : x sn.2 = i.sampleIn.toInt := by
        rw [h.count]
        exact hx.last hi
      by_cases hlast : sn.2 % rate.toNat = rate.toNat - 1
      · have hfire := h.filters.fire hstages hrate hi hr hxn hlast
        have hdiv := (succ_div_mod_of_last hpos hlast).1
        -- The output comes with the input that ends the block.
        have hnumber : sn.2 / rate.toNat * rate.toNat + (rate.toNat - 1) = sn.2 :=
          blockEnd_of_last hlast
        refine ⟨hcount, ?_, ?_⟩
        · simpa [numbered, hi] using hfire.2.2
        · rw [houtputs]
          simp [numbered, emitted, decimated, hi, hfire.1, hfire.2.1, hdiv, hnumber,
            List.range_succ]
      · have hcnt := h.filters.count hrate hi hr hxn hlast
        have hdiv := (succ_div_mod_of_more hpos hlast).1
        refine ⟨hcount, ?_, ?_⟩
        · simpa [numbered, hi] using hcnt.2
        · rw [houtputs]
          simp [numbered, emitted, decimated, hi, hcnt.1, hdiv]

/-- The outputs of a whole run, for any number of stages. -/
theorem outputs_eq_decimated {rate : BitVec 16} (hrate : rate ≠ 0) {stages : Nat}
    (hstages : 0 < stages) {x : ℕ → ℤ} {is : List (Inputs inWidth)}
    (hconst : ∀ i ∈ is, i.decimRate = rate) (hx : Agrees x is) :
    outputs stages accWidth is =
      decimated x rate.toNat stages accWidth (validInputs is).length := by
  have hpos : 0 < rate.toNat := BitVec.toNat_pos_of_ne_zero hrate
  have hrun : ∀ is : List (Inputs inWidth),
      Along numbered (fun _ i => i.decimRate = rate) (resetState stages accWidth, 0) is →
        Agrees x is →
          Decimates x rate.toNat stages is
            (runFrom numbered (resetState stages accWidth, 0) is) := by
    apply history_invariant (P := fun is sn => Agrees x is → Decimates x rate.toNat stages is sn)
    · intro _
      exact ⟨rfl, filters_resetState x hpos stages, by simp [outputs, decimated]⟩
    · intro is i ih hr hx
      exact decimates_snoc hrate hstages hr hx (ih hx.of_snoc)
  have h := hrun is (along_of_forall (fun _ => hconst)) hx
  rw [h.outputs, h.count]

/-! ## Three stages -/

/-- The three-fold convolution of `R` ones. -/
def kernel (R : Nat) : ℕ → ℤ :=
  conv (ones R) (conv (ones R) (ones R))

/-- The sequence of the valid inputs, zero at negative indices and past its end. -/
def sampleAt (xs : List Int) (k : ℤ) : ℤ :=
  if 0 ≤ k then xs.getD k.toNat 0 else 0

/-- The filter at input `n`: `kernel_eq_zero` says that no later term of the kernel counts. -/
def boxcar (R : Nat) (xs : List Int) (n : Nat) : ℤ :=
  ∑ j ∈ Finset.range (3 * R), kernel R j * sampleAt xs ((n : ℤ) - 3 - j)

theorem ones_eq_zero {R j : Nat} (h : R ≤ j) : (ones R j : ℤ) = 0 :=
  if_neg (Nat.not_lt.2 h)

theorem kernel_eq_zero {R j : Nat} (h : 3 * R ≤ j + 2) : kernel R j = 0 := by
  cases R with
  | zero =>
      simp [kernel, conv, ones]
  | succ R =>
      refine conv_eq_zero (F := R + 1) (G := 2 * R + 1) (fun _ => ones_eq_zero) ?_ (by omega)
      intro k hk
      exact conv_eq_zero (F := R + 1) (G := R + 1) (fun _ => ones_eq_zero) (fun _ => ones_eq_zero)
        (by omega)

theorem sampleAt_neg (xs : List Int) {k : ℤ} (h : k < 0) : sampleAt xs k = 0 :=
  if_neg (Int.not_le.2 h)

theorem back_conv_eq_boxcar (R : Nat) (xs : List Int) (n : Nat) :
    back 3 (conv (kernel R) (fun k => xs.getD k 0)) n = boxcar R xs n := by
  by_cases hn : 3 ≤ n
  · rw [back, if_pos hn, conv_eq_sum_range, boxcar]
    -- One sum is cut off where the inputs start, the other where the kernel ends.
    apply Finset.sum_congr_of_eq_on_inter
    · intro j _ hj
      rw [Finset.mem_range, Nat.not_lt] at hj
      rw [kernel_eq_zero (by omega), zero_mul]
    · intro j _ hj
      rw [Finset.mem_range, Nat.not_lt] at hj
      rw [sampleAt_neg xs (by omega), mul_zero]
    · intro j hj _
      rw [Finset.mem_range] at hj
      have hindex : ((n : ℤ) - 3 - j).toNat = n - 3 - j := by omega
      rw [sampleAt, if_pos (by omega), hindex]
  · rw [back, if_neg hn, boxcar]
    refine (Finset.sum_eq_zero ?_).symm
    intro j _
    rw [sampleAt_neg xs (by omega), mul_zero]

theorem abs_boxcar_le {R : Nat} {xs : List Int} {M : ℤ} (hM : 0 ≤ M) (hxs : ∀ v ∈ xs, |v| ≤ M)
    (n : Nat) : |boxcar R xs n| ≤ R ^ 3 * M := by
  have hx : ∀ k, |xs.getD k 0| ≤ M := by
    intro k
    rw [List.getD_eq_getElem?_getD]
    cases hk : xs[k]? with
    | none =>
        simpa using hM
    | some v =>
        exact hxs v (List.mem_of_getElem? hk)
  -- Each of the three boxes multiplies the bound by its length.
  have hconv : ∀ k, |conv (kernel R) (fun k => xs.getD k 0) k| ≤ R * (R * (R * M)) := by
    intro k
    rw [kernel, conv_assoc, conv_assoc]
    exact abs_conv_ones_le (abs_conv_ones_le (abs_conv_ones_le hx)) k
  have hprod : (R : ℤ) ^ 3 * M = R * (R * (R * M)) := by ring
  rw [← back_conv_eq_boxcar, hprod, back]
  split_ifs
  · exact hconv (n - 3)
  · simpa using le_trans (abs_nonneg _) (hconv 0)

theorem fits_of_abs_lt {v : ℤ} (h : |v| < 2 ^ (accWidth - 1)) : Fits accWidth v := by
  obtain ⟨hlo, hhi⟩ := abs_lt.1 h
  cases accWidth with
  | zero =>
      rw [Nat.zero_sub, pow_zero] at hlo hhi
      exact ⟨by rw [pow_zero]; omega, by rw [pow_zero]; omega⟩
  | succ w =>
      rw [Nat.add_sub_cancel] at hlo hhi
      exact ⟨by rw [pow_succ]; omega, by rw [pow_succ]; omega⟩

/-- At a constant rate `R` the outputs are those of a third-order boxcar filter, one for every `R`
inputs; with `R ^ 3` times the largest input inside the accumulator's range they are exact. -/
theorem outputs_eq_boxcar {rate : BitVec 16} (hrate : rate ≠ 0) {is : List (Inputs inWidth)}
    (hconst : ∀ i ∈ is, i.decimRate = rate) :
    outputs 3 accWidth is =
        (List.range ((validInputs is).length / rate.toNat)).map (fun m =>
          (m * rate.toNat + (rate.toNat - 1),
            BitVec.ofInt accWidth
              (boxcar rate.toNat (validInputs is) (m * rate.toNat + (rate.toNat - 1))))) ∧
      ∀ M : ℤ, (∀ v ∈ validInputs is, |v| ≤ M) →
        (rate.toNat : ℤ) ^ 3 * M < 2 ^ (accWidth - 1) →
          ∀ n y, (n, y) ∈ outputs 3 accWidth is →
            y.toInt = boxcar rate.toNat (validInputs is) n := by
  have hagrees : Agrees (fun k => (validInputs is).getD k 0) is := by
    intro k v hk
    simp [hk]
  have houtputs : outputs 3 accWidth is =
      (List.range ((validInputs is).length / rate.toNat)).map (fun m =>
        (m * rate.toNat + (rate.toNat - 1),
          BitVec.ofInt accWidth
            (boxcar rate.toNat (validInputs is) (m * rate.toNat + (rate.toNat - 1))))) := by
    rw [outputs_eq_decimated hrate (by decide : 0 < 3) hconst hagrees]
    simp only [decimated, lagged_summed_three, ← back_conv_eq_boxcar]
    rfl
  refine ⟨houtputs, ?_⟩
  intro M hM hfit n y hy
  rw [houtputs] at hy
  obtain ⟨m, hm, hny⟩ := List.mem_map.1 hy
  obtain ⟨rfl, rfl⟩ := Prod.mk.inj hny
  -- There is an output, so there is an input, and the bound is not negative.
  have hnonneg : 0 ≤ M := by
    cases hxs : validInputs is with
    | nil =>
        simp [hxs] at hm
    | cons v vs =>
        exact le_trans (abs_nonneg v) (hM v (by simp [hxs]))
  exact toInt_ofInt_of_fits
    (fits_of_abs_lt (lt_of_le_of_lt (abs_boxcar_le hnonneg hM _) hfit))

/-- Twelve inputs at the negative rail with an idle cycle after each: the third integrator passes the
range of its eight bits. -/
def railRun : List (Inputs 3) :=
  (List.replicate 12 [⟨4, true, 2⟩, ⟨0, false, 2⟩]).flatten

theorem outputs_eq_boxcar_railRun :
    (outputs 3 8 railRun).map (fun o => (o.1, o.2.toInt)) =
        [(1, 0), (3, -4), (5, -28), (7, -32), (9, -32), (11, -32)] ∧
      ∀ n y, (n, y) ∈ outputs 3 8 railRun → y.toInt = boxcar 2 (validInputs railRun) n :=
  ⟨by decide,
    (outputs_eq_boxcar (by decide : (2 : BitVec 16) ≠ 0) (by decide)).2 4 (by decide) (by decide)⟩

/-! ## Changes of the rate -/

/-- The rate that `decim_safe` stands for. -/
def period (decimRate : BitVec 16) : Nat :=
  max decimRate.toNat 1

/-- With the rate held and `period` valid inputs, some edge on the way puts out a sample. -/
def OutputWithin (s : State accWidth) (decimRate : BitVec 16) (next : List (Inputs inWidth)) : Prop :=
  (∀ i ∈ next, i.decimRate = decimRate) → period decimRate ≤ (validInputs next).length →
    ∃ done, done ≠ [] ∧ done <+: next ∧ (runFrom clock s done).validOut = true

section Count

variable {s : State accWidth} {i : Inputs inWidth}

theorem decimSafe_pred_toNat (decimRate : BitVec 16) :
    (decimSafe decimRate - 1).toNat + 1 = period decimRate := by
  by_cases h : decimRate = 0
  · subst h
    rfl
  · have hpos : 0 < decimRate.toNat := BitVec.toNat_pos_of_ne_zero h
    rw [decimSafe_toNat h, period]
    omega

theorem decimFire_iff (decimRate : BitVec 16) :
    decimFire s true decimRate = true ↔ s.decimCount.toNat + 1 = period decimRate := by
  rw [decimFire, Bool.true_and, beq_iff_eq, BitVec.toNat_inj.symm, ← decimSafe_pred_toNat]
  omega

theorem clock_validOut (hi : i.validIn = true) :
    (clock s i).validOut = true ↔ s.decimCount.toNat + 1 = period i.decimRate := by
  rw [← decimFire_iff]
  cases hfire : decimFire s true i.decimRate <;> simp [clock, step, hi, hfire]

theorem clock_decimCount (hi : i.validIn = true)
    (hnot : s.decimCount.toNat + 1 ≠ period i.decimRate) :
    (clock s i).decimCount = s.decimCount + 1 := by
  have hfire : decimFire s true i.decimRate = false := by
    rw [← Bool.not_eq_true, decimFire_iff]
    exact hnot
  simp [clock, step, hi, hfire]

theorem clock_idle_decimCount (hi : i.validIn = false) : (clock s i).decimCount = s.decimCount := by
  simp [clock, step, hi]

end Count

theorem period_le (decimRate : BitVec 16) : period decimRate ≤ 2 ^ 16 := by
  have hlt := decimRate.isLt
  rw [period]
  omega

/-- What is missing to the rate goes down with every valid input. -/
theorem outputWithin_of_lt {decimRate : BitVec 16} {next : List (Inputs inWidth)}
    (hconst : ∀ i ∈ next, i.decimRate = decimRate) {s : State accWidth}
    (hlt : s.decimCount.toNat < period decimRate)
    (henough : period decimRate ≤ s.decimCount.toNat + (validInputs next).length) :
    ∃ done, done ≠ [] ∧ done <+: next ∧ (runFrom clock s done).validOut = true := by
  induction next generalizing s with
  | nil =>
      simp [validInputs] at henough
      omega
  | cons i next ih =>
      have hr : i.decimRate = decimRate := hconst i (by simp)
      have hrest : ∀ i ∈ next, i.decimRate = decimRate := fun j hj => hconst j (by simp [hj])
      -- An output after the first edge is one of the whole run.
      have hcons : (∃ done, done ≠ [] ∧ done <+: next ∧
          (runFrom clock (clock s i) done).validOut = true) →
            ∃ done, done ≠ [] ∧ done <+: i :: next ∧ (runFrom clock s done).validOut = true := by
        rintro ⟨done, -, hdone, hout⟩
        exact ⟨i :: done, by simp, List.cons_prefix_cons.2 ⟨rfl, hdone⟩, hout⟩
      cases hi : i.validIn with
      | false =>
          have hcount : (clock s i).decimCount = s.decimCount := clock_idle_decimCount hi
          apply hcons
          apply ih hrest
          · simpa [hcount] using hlt
          · simpa [hcount, validInputs, hi] using henough
      | true =>
          by_cases hlast : s.decimCount.toNat + 1 = period decimRate
          · exact ⟨[i], by simp, ⟨next, rfl⟩, (clock_validOut hi).2 (hr ▸ hlast)⟩
          · have hbound := period_le decimRate
            have hcount : (clock s i).decimCount.toNat = s.decimCount.toNat + 1 := by
              rw [clock_decimCount hi (hr ▸ hlast), BitVec.toNat_add]
              exact Nat.mod_eq_of_lt (by simp; omega)
            apply hcons
            apply ih hrest
            · omega
            · simp [validInputs, hi] at henough ⊢
              omega

/-- A counter past the rate meets it only after it has gone around. -/
theorem runFrom_replicate_of_le {i : Inputs inWidth} (hi : i.validIn = true) {s : State accWidth}
    (hle : period i.decimRate ≤ s.decimCount.toNat) {n : Nat} (hn : n ≤ period i.decimRate) :
    (runFrom clock s (List.replicate n i)).decimCount.toNat = (s.decimCount.toNat + n) % 65536 ∧
      (0 < n → (runFrom clock s (List.replicate n i)).validOut = false) := by
  have hcount := s.decimCount.isLt
  induction n with
  | zero =>
      exact ⟨(Nat.mod_eq_of_lt hcount).symm, by simp⟩
  | succ n ih =>
      have hbefore := (ih (by omega)).1
      rw [List.replicate_succ', runFrom_snoc]
      generalize runFrom clock s (List.replicate n i) = t at hbefore ⊢
      -- The counter is still past the period, or has gone around and is below the `n` inputs so far.
      have hoff : t.decimCount.toNat + 1 ≠ period i.decimRate := by omega
      refine ⟨?_, fun _ => ?_⟩
      · rw [clock_decimCount hi hoff, BitVec.toNat_add, hbefore, ← Nat.add_assoc]
        exact Nat.mod_add_mod _ 65536 1
      · rw [← Bool.not_eq_true, clock_validOut hi]
        exact hoff

theorem not_outputWithin_of_le {i : Inputs inWidth} (hi : i.validIn = true) {s : State accWidth}
    (hle : period i.decimRate ≤ s.decimCount.toNat) :
    ¬OutputWithin s i.decimRate (List.replicate (period i.decimRate) i) := by
  intro h
  have hlen : (validInputs (List.replicate (period i.decimRate) i)).length =
      period i.decimRate := by
    simp [validInputs, hi]
  obtain ⟨done, hne, hdone, hout⟩ :=
    h (fun j hj => by rw [List.eq_of_mem_replicate hj]) (le_of_eq hlen.symm)
  obtain ⟨hshort, hsame⟩ := List.prefix_replicate_iff.1 hdone
  have hsilent := (runFrom_replicate_of_le hi hle hshort).2 (List.length_pos_iff.2 hne)
  rw [← hsame, hout] at hsilent
  exact absurd hsilent (by decide)

/-- After every history the decimator puts out a sample within one period of the rate held from then
on exactly when its counter stands below that period. -/
theorem output_within_rate_iff (stages : Nat) (history : List (Inputs inWidth))
    (decimRate : BitVec 16) :
    (∀ next : List (Inputs inWidth),
        OutputWithin (runFrom clock (resetState stages accWidth) history) decimRate next) ↔
      (runFrom clock (resetState stages accWidth) history).decimCount.toNat <
        max decimRate.toNat 1 := by
  generalize runFrom clock (resetState stages accWidth) history = s
  constructor
  · intro h
    by_contra hle
    exact not_outputWithin_of_le (i := ⟨0, true, decimRate⟩) rfl (Nat.not_lt.1 hle) (h _)
  · intro hlt next hconst henough
    exact outputWithin_of_lt hconst hlt (Nat.le_add_left_of_le henough)

/-- The rate falls from 500 to 250, for 500 kS/s and 1 MS/s, when the counter has come to 250. -/
def loweredRate : List (Inputs 32) :=
  List.replicate 250 ⟨0, true, 500⟩

theorem not_output_within_loweredRate :
    ¬∀ next : List (Inputs 32),
        OutputWithin (runFrom clock (resetState 3 56) loweredRate) 250 next := by
  have hpast : period 250 ≤ (runFrom clock (resetState 3 56) loweredRate).decimCount.toNat := by
    decide +kernel
  intro h
  exact not_outputWithin_of_le (i := ⟨0, true, 250⟩) rfl hpast (h _)

end CicDecimator
end Fpga
end Sdr
