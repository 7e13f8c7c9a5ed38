import Mathlib.Data.BitVec
import Sdr.Lib.FixedPoint
import Sdr.Lib.Machine
import Sdr.Fpga.AdcFrontend

/-!
# DcRemoval — the running average of the ADC samples

`dc_offset_remove` keeps `4096` times an average and moves it by a 4096th of its distance from each
sample, rounded down.  The average never leaves the range of the samples, so nothing wraps; and while
the samples stay at one value it closes in on it, from above until it has met it, from below until it
is less than one sample step away (`dc_removal_settles`).
-/

namespace Sdr
namespace Fpga
namespace DcOffsetRemove

open Lib

/-! ## Runs -/

/-- One cycle of the frontend, out of reset and with the removal enabled. -/
structure Inputs where
  adcSample : BitVec 14
  offsetBinary : Bool
  sampleValid : Bool

def clock (s : State) (i : Inputs) : State :=
  step s false true (adcFormatConvert i.adcSample i.offsetBinary) i.sampleValid

/-- The sample that the format conversion makes of the code. -/
def sample (i : Inputs) : Int :=
  (adcFormatConvert i.adcSample i.offsetBinary).toInt

theorem sample_bounds (i : Inputs) : -8192 ≤ sample i ∧ sample i ≤ 8191 :=
  adcFormatConvert_bounds i.adcSample i.offsetBinary

/-! ## One sample -/

/-- The average is one of samples of the ADC. -/
def InRange (s : State) : Prop :=
  -8192 * 4096 ≤ s.avgQ.toInt ∧ s.avgQ.toInt ≤ 8191 * 4096

section Clock

variable {s : State} {i : Inputs}

theorem toInt_sampleQ (i : Inputs) :
    (sampleQ (adcFormatConvert i.adcSample i.offsetBinary)).toInt = sample i * 4096 := by
  obtain ⟨hlo, hhi⟩ := sample_bounds i
  have hshift : (adcFormatConvert i.adcSample i.offsetBinary).signExtend 32 <<< AVG_SHIFT =
      (adcFormatConvert i.adcSample i.offsetBinary).signExtend 32 * BitVec.twoPow 32 AVG_SHIFT :=
    BitVec.shiftLeft_eq_mul_twoPow _ _
  rw [sampleQ, hshift]
  exact toInt_mul_of_fits (BitVec.toInt_signExtend_of_le (by decide)) (by decide)
    ⟨by omega, by omega⟩

theorem toInt_avgError (hs : InRange s) :
    (avgError s (adcFormatConvert i.adcSample i.offsetBinary)).toInt =
      sample i * 4096 - s.avgQ.toInt := by
  obtain ⟨hlo, hhi⟩ := sample_bounds i
  obtain ⟨havglo, havghi⟩ := hs
  exact toInt_sub_of_fits (toInt_sampleQ i) rfl ⟨by omega, by omega⟩

/-- The average moves towards the sample, exactly. -/
theorem clock_avgQ (hs : InRange s) (hi : i.sampleValid = true) :
    (clock s i).avgQ.toInt =
      s.avgQ.toInt + (sample i * 4096 - s.avgQ.toInt) / 4096 := by
  obtain ⟨hlo, hhi⟩ := sample_bounds i
  have hmove : ((avgError s (adcFormatConvert i.adcSample i.offsetBinary)).sshiftRight
      AVG_SHIFT).toInt = (sample i * 4096 - s.avgQ.toInt) / 4096 := by
    rw [toInt_sshiftRight_eq_ediv, toInt_avgError hs]
    rfl
  obtain ⟨havglo, havghi⟩ := hs
  simp only [clock, step, hi]
  exact toInt_add_of_fits rfl hmove ⟨by omega, by omega⟩

theorem clock_sampleOut (hs : InRange s) (hi : i.sampleValid = true) :
    (clock s i).sampleOut.toInt = sample i - s.avgQ.toInt / 4096 := by
  obtain ⟨hlo, hhi⟩ := sample_bounds i
  have havg : (avgSample s).toInt = s.avgQ.toInt / 4096 := by
    rw [avgSample, toInt_sshiftRight_eq_ediv]
    rfl
  obtain ⟨havglo, havghi⟩ := hs
  -- The average in whole steps fits the 17 bits that are kept of it.
  have hlow : ((avgSample s).extractLsb' 0 17).toInt = s.avgQ.toInt / 4096 := by
    rw [toInt_extractLsb'_of_fits (by decide), havg]
    rw [havg]
    exact ⟨by omega, by omega⟩
  have hcorrected : (corrected s (adcFormatConvert i.adcSample i.offsetBinary)).toInt =
      sample i - s.avgQ.toInt / 4096 :=
    toInt_sub_of_fits (BitVec.toInt_signExtend_of_le (by decide)) hlow ⟨by omega, by omega⟩
  simp only [clock, step, hi]
  rw [← hcorrected]
  apply toInt_extractLsb'_of_fits (by decide)
  rw [hcorrected]
  exact ⟨by omega, by omega⟩

theorem clock_idle (hi : i.sampleValid = false) :
    (clock s i).avgQ = s.avgQ ∧ (clock s i).sampleOut = s.sampleOut := by
  simp [clock, step, hi]

theorem InRange.clock (hs : InRange s) (i : Inputs) : InRange (clock s i) := by
  cases hi : i.sampleValid with
  | false =>
      rw [InRange, (clock_idle hi).1]
      exact hs
  | true =>
      obtain ⟨hlo, hhi⟩ := sample_bounds i
      rw [InRange, clock_avgQ hs hi]
      obtain ⟨havglo, havghi⟩ := hs
      exact ⟨by omega, by omega⟩

end Clock

/-! ## Settling -/

/-- The distance from a sample to the average, in 4096ths. -/
def gap (x : Int) (s : State) : Int :=
  x * 4096 - s.avgQ.toInt

/-- The next sample of this value will not move the average. -/
def Near (x : Int) (s : State) : Prop :=
  0 ≤ gap x s ∧ gap x s < 4096

def Quiet (s : State) : Prop :=
  s.sampleOut.toInt = 0 ∨ s.sampleOut.toInt = 1

instance decidableNear (x : Int) (s : State) : Decidable (Near x s) :=
  inferInstanceAs (Decidable (_ ∧ _))

instance decidableQuiet (s : State) : Decidable (Quiet s) :=
  inferInstanceAs (Decidable (_ ∨ _))

/-- A bound on the samples that it takes to settle. -/
def unrest (x : Int) (s : State) : Nat :=
  if Near x s then (if Quiet s then 0 else 1) else (gap x s).natAbs + 1

section Settling

variable {x : Int} {s : State} {i : Inputs}

theorem gap_clock (hs : InRange s) (hi : i.sampleValid = true) (hx : sample i = x) :
    gap x (clock s i) = gap x s - gap x s / 4096 := by
  rw [gap, clock_avgQ hs hi, hx, gap]
  omega

theorem Near.clock (h : Near x s) (hs : InRange s) (hi : i.sampleValid = true)
    (hx : sample i = x) : Near x (clock s i) ∧ Quiet (clock s i) := by
  obtain ⟨hlo, hhi⟩ := h
  constructor
  · rw [Near, gap_clock hs hi hx]
    omega
  · rw [Quiet, clock_sampleOut hs hi, hx]
    rw [gap] at hlo hhi
    omega

/-- Away from the sample the average comes closer, by one at least. -/
theorem natAbs_gap_clock (h : ¬Near x s) (hs : InRange s) (hi : i.sampleValid = true)
    (hx : sample i = x) : (gap x (clock s i)).natAbs < (gap x s).natAbs := by
  rw [Near] at h
  rw [gap_clock hs hi hx]
  omega

theorem unrest_clock (hs : InRange s) (hx : i.sampleValid = true → sample i = x) :
    unrest x (clock s i) ≤ unrest x s - i.sampleValid.toNat := by
  cases hi : i.sampleValid with
  | false =>
      obtain ⟨havg, hout⟩ := clock_idle hi
      have hgap : gap x (clock s i) = gap x s := by rw [gap, gap, havg]
      have hnear : Near x (clock s i) ↔ Near x s := by rw [Near, Near, hgap]
      have hquiet : Quiet (clock s i) ↔ Quiet s := by rw [Quiet, Quiet, hout]
      simp only [unrest, hnear, hquiet, hgap]
      exact le_refl _
  | true =>
      by_cases hnear : Near x s
      · obtain ⟨hnear', hquiet⟩ := hnear.clock hs hi (hx hi)
        simp [unrest, hnear', hquiet]
      · -- The extra one of the bound pays for the sample that makes the output quiet.
        have hcloser := natAbs_gap_clock hnear hs hi (hx hi)
        have hle : unrest x (clock s i) ≤ (gap x (clock s i)).natAbs + 1 := by
          rw [unrest]
          split_ifs <;> omega
        have hbefore : unrest x s = (gap x s).natAbs + 1 := if_neg hnear
        rw [hbefore, Bool.toNat_true]
        omega

end Settling

/-- What holds in a state of the filter. -/
structure Removes (s : State) : Prop where
  avg_ge : -8192 * 4096 ≤ s.avgQ.toInt
  avg_le : s.avgQ.toInt ≤ 8191 * 4096
  /-- The output and the next average are those of the integers. -/
  exact : ∀ i : Inputs, i.sampleValid = true →
    (clock s i).sampleOut.toInt = sample i - s.avgQ.toInt / 4096 ∧
      (clock s i).avgQ.toInt = s.avgQ.toInt + (sample i * 4096 - s.avgQ.toInt) / 4096
  settles : ∀ x : Int, ∃ N, ∀ next : List Inputs,
    (∀ i ∈ next, i.sampleValid = true → sample i = x) →
      N ≤ next.countP Inputs.sampleValid →
        (runFrom clock s next).sampleOut.toInt = 0 ∨ (runFrom clock s next).sampleOut.toInt = 1

/-- In every state that a run out of reset reaches, the average is in range, the output is exact, and a
constant input leaves at most one step of offset after finitely many samples. -/
theorem dc_removal_settles (history : List Inputs) :
    Removes (runFrom clock resetState history) := by
  have hrange : InRange (runFrom clock resetState history) :=
    runFrom_inductive (fun s i h => h.clock i) ⟨by decide, by decide⟩ history
  generalize runFrom clock resetState history = s at hrange
  refine ⟨hrange.1, hrange.2, ?_, ?_⟩
  · intro i hi
    exact ⟨clock_sampleOut hrange hi, clock_avgQ hrange hi⟩
  · intro x
    refine ⟨unrest x s, ?_⟩
    intro next hnext henough
    have halong : Along clock (fun _ i => i.sampleValid = true → sample i = x) s next :=
      along_of_forall (fun _ => hnext)
    have hzero : unrest x (runFrom clock s next) = 0 :=
      @runFrom_rank _ _ clock _ InRange Inputs.sampleValid (unrest x) (fun s i h _ => h.clock i)
        (fun s i h hx => unrest_clock h hx) s hrange next halong henough
    -- Of the three values of the bound only that of a quiet state is zero.
    rw [unrest] at hzero
    split_ifs at hzero with hnear hquiet
    exact hquiet

end DcOffsetRemove
end Fpga
end Sdr
