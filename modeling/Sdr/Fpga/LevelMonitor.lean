import Mathlib.Algebra.Order.BigOperators.Group.List
import Mathlib.Algebra.Order.Ring.Nat
import Sdr.Lib.Machine
import Sdr.Fpga.SdrPlCore

/-!
# LevelMonitor — exact windows, and the clipped samples

`adc_level_monitor` cuts the valid samples into windows of `2 ^ WINDOW_LOG2` and reports the peak and
the mean power of the last full one.  Up to 32 bits of window no register on the way overflows, and the
reports are exact (`windows_exact`).

Its clip counter is to count the samples at the rails of the ADC and the pairs that the down-converter
saturated.  The threshold is the one of a 16-bit sample, which no converted 14-bit code reaches, so the
count is right exactly as long as no sample sits at a rail (`clip_count_iff`).
-/

namespace Sdr
namespace Fpga
namespace AdcLevelMonitor

open Lib

variable {windowLog2 : Nat}

/-! ## Windows -/

/-- The samples of the valid cycles. -/
def samples (is : List Inputs) : List Int :=
  (is.filter Inputs.sampleValid).map (fun i => i.sampleIn.toInt)

def peak (xs : List Int) : Nat :=
  xs.foldl (fun m x => max m x.natAbs) 0

/-- The sum of the squares. -/
def power (xs : List Int) : Nat :=
  (xs.map (fun x => x.natAbs ^ 2)).sum

theorem peak_snoc (xs : List Int) (x : Int) : peak (xs ++ [x]) = max (peak xs) x.natAbs := by
  simp [peak]

theorem power_snoc (xs : List Int) (x : Int) : power (xs ++ [x]) = power xs + x.natAbs ^ 2 := by
  simp [power]

theorem power_le {xs : List Int} (h : ∀ x ∈ xs, x.natAbs ≤ 32768) :
    power xs ≤ xs.length * 2 ^ 30 := by
  have hsum : (xs.map (fun x => x.natAbs ^ 2)).sum ≤
      (xs.map (fun x => x.natAbs ^ 2)).length • 2 ^ 30 := by
    apply List.sum_le_card_nsmul
    intro y hy
    obtain ⟨x, hx, rfl⟩ := List.mem_map.1 hy
    exact Nat.pow_le_pow_left (h x hx) 2
  simpa [power] using hsum

/-! ## The values of one cycle -/

theorem toNat_absSample (i : Inputs) : (absSample i).toNat = i.sampleIn.toInt.natAbs := by
  have hlt := i.sampleIn.isLt
  have hneg : ~~~i.sampleIn + 1 = -i.sampleIn := (BitVec.neg_eq_not_add i.sampleIn).symm
  rw [absSample, hneg, BitVec.toInt_eq_msb_cond]
  cases hmsb : i.sampleIn.msb with
  | false =>
      simp
  | true =>
      -- The wire is unsigned, so the most negative sample has its magnitude too.
      have hhalf : 2 ^ 16 ≤ 2 * i.sampleIn.toNat := BitVec.msb_eq_true_iff_two_mul_ge.1 hmsb
      simp only [if_true, BitVec.toNat_neg]
      omega

theorem natAbs_le (i : Inputs) : i.sampleIn.toInt.natAbs ≤ 32768 := by
  have hlo := BitVec.le_toInt i.sampleIn
  have hhi := BitVec.toInt_lt (x := i.sampleIn)
  omega

theorem toNat_powerSample (i : Inputs) :
    (powerSample i).toNat = i.sampleIn.toInt.natAbs ^ 2 := by
  have hle := natAbs_le i
  have hsq : i.sampleIn.toInt.natAbs * i.sampleIn.toInt.natAbs ≤ 32768 * 32768 :=
    Nat.mul_le_mul hle hle
  have hwide : ((absSample i).setWidth 32).toNat = i.sampleIn.toInt.natAbs := by
    rw [BitVec.toNat_setWidth, toNat_absSample]
    exact Nat.mod_eq_of_lt (by omega)
  rw [powerSample, BitVec.toNat_mul, hwide, Nat.pow_two]
  exact Nat.mod_eq_of_lt (by omega)

theorem toNat_powerNext {s : State windowLog2} {i : Inputs} (h : s.powerAcc.toNat < 2 ^ 62) :
    (powerNext s i).toNat = s.powerAcc.toNat + i.sampleIn.toInt.natAbs ^ 2 := by
  have hsq : i.sampleIn.toInt.natAbs ^ 2 ≤ 32768 ^ 2 := Nat.pow_le_pow_left (natAbs_le i) 2
  have hwide : ((powerSample i).setWidth 64).toNat = i.sampleIn.toInt.natAbs ^ 2 := by
    rw [BitVec.toNat_setWidth, toNat_powerSample]
    exact Nat.mod_eq_of_lt (by omega)
  rw [powerNext, BitVec.toNat_add, hwide]
  exact Nat.mod_eq_of_lt (by omega)

theorem toNat_peakNext (s : State windowLog2) (i : Inputs) :
    (peakNext s i).toNat = max s.peakWork.toNat i.sampleIn.toInt.natAbs := by
  rw [peakNext, ← toNat_absSample]
  split_ifs with h
  · exact (max_eq_right (Nat.le_of_lt h)).symm
  · exact (max_eq_left (Nat.not_lt.1 h)).symm

/-! ## Runs -/

/-- The registers after the full windows and the samples of the current one. -/
structure Windows (windows : List (List Int)) (current : List Int) (s : State windowLog2) : Prop where
  full : ∀ w ∈ windows, w.length = 2 ^ windowLog2
  current_lt : current.length < 2 ^ windowLog2
  windowCount : s.windowCount.toNat = current.length
  peakWork : s.peakWork.toNat = peak current
  powerAcc : s.powerAcc.toNat = power current
  peakAbs : s.peakAbs.toNat = peak (windows.getLastD [])
  rmsPower : s.rmsPower.toNat = power (windows.getLastD []) / 2 ^ windowLog2

/-- The wires and the sum of the next cycle hold their values. -/
structure NoOverflow (s : State windowLog2) (i : Inputs) : Prop where
  absSample : (absSample i).toNat = i.sampleIn.toInt.natAbs
  powerSample : (powerSample i).toNat = i.sampleIn.toInt.natAbs ^ 2
  powerNext : (powerNext s i).toNat = s.powerAcc.toNat + i.sampleIn.toInt.natAbs ^ 2
  rmsPower : (AdcLevelMonitor.powerNext s i).toNat / 2 ^ windowLog2 < 2 ^ 32

theorem samples_snoc (is : List Inputs) (i : Inputs) :
    samples (is ++ [i]) = samples is ++ if i.sampleValid then [i.sampleIn.toInt] else [] := by
  cases h : i.sampleValid <;> simp [samples, h]

theorem natAbs_le_of_samples {is : List Inputs} {windows : List (List Int)} {current : List Int}
    (h : samples is = windows.flatten ++ current) : ∀ x ∈ current, x.natAbs ≤ 32768 := by
  intro x hx
  have hmem : x ∈ samples is := by
    rw [h]
    exact List.mem_append_right _ hx
  obtain ⟨i, -, rfl⟩ := List.mem_map.1 hmem
  exact natAbs_le i

section Step

variable {windows : List (List Int)} {current : List Int} {s : State windowLog2} {i : Inputs}

theorem windows_resetState : Windows [] [] (resetState windowLog2) := by
  constructor <;> simp [resetState, peak, power]

theorem Windows.noOverflow (h : Windows windows current s) (hlog : windowLog2 ≤ 32)
    (hsmall : ∀ x ∈ current, x.natAbs ≤ 32768) (i : Inputs) : NoOverflow s i := by
  have hpow : 2 ^ windowLog2 ≤ 2 ^ 32 := Nat.pow_le_pow_right (by decide) hlog
  have hpower := power_le hsmall
  have hlt := h.current_lt
  have hnext := toNat_powerNext (s := s) (i := i) (by rw [h.powerAcc]; omega)
  have hsq : i.sampleIn.toInt.natAbs ^ 2 ≤ 32768 ^ 2 := Nat.pow_le_pow_left (natAbs_le i) 2
  refine ⟨toNat_absSample i, toNat_powerSample i, hnext, ?_⟩
  -- A full window of the most negative sample gives `2 ^ 30`, inside the 32 bits of `rms_power`.
  rw [hnext, h.powerAcc, Nat.div_lt_iff_lt_mul (Nat.pow_pos (by decide))]
  omega

/-- Counting events leaves the windows alone. -/
theorem Windows.count (h : Windows windows current s) (i : Inputs) :
    Windows windows current (count s i) := by
  rw [AdcLevelMonitor.count]
  by_cases hclear : i.clearCounts = true
  · rw [if_pos hclear]
    exact ⟨h.full, h.current_lt, h.windowCount, h.peakWork, h.powerAcc, h.peakAbs, h.rmsPower⟩
  · rw [if_neg hclear]
    exact ⟨h.full, h.current_lt, h.windowCount, h.peakWork, h.powerAcc, h.peakAbs, h.rmsPower⟩

theorem Windows.windowLast_iff (h : Windows windows current s) (hi : i.sampleValid = true) :
    windowLast s i = true ↔ current.length + 1 = 2 ^ windowLog2 := by
  have hlt := h.current_lt
  rw [windowLast, hi, Bool.true_and, beq_iff_eq, BitVec.toNat_inj.symm, BitVec.toNat_allOnes,
    h.windowCount]
  omega

/-- A sample that does not end its window. -/
theorem Windows.more (h : Windows windows current s) (hno : NoOverflow s i)
    (hi : i.sampleValid = true) (hmore : current.length + 1 ≠ 2 ^ windowLog2) :
    Windows windows (current ++ [i.sampleIn.toInt]) (measure s i) := by
  have hlt := h.current_lt
  have hnot : windowLast s i = false := by
    rw [← Bool.not_eq_true, h.windowLast_iff hi]
    exact hmore
  rw [measure, hi, hnot]
  refine ⟨h.full, ?_, ?_, ?_, ?_, h.peakAbs, h.rmsPower⟩
  · rw [List.length_append, List.length_singleton]
    omega
  · have hcount : (s.windowCount + 1).toNat = (current.length + 1) % 2 ^ windowLog2 := by
      rw [BitVec.toNat_add, h.windowCount]
      exact Nat.add_mod_mod _ _ _
    rw [List.length_append, List.length_singleton]
    exact hcount.trans (Nat.mod_eq_of_lt (by omega))
  · rw [peak_snoc, ← h.peakWork]
    exact toNat_peakNext s i
  · rw [power_snoc, ← h.powerAcc]
    exact hno.powerNext

/-- The last sample of a window. -/
theorem Windows.last (h : Windows windows current s) (hno : NoOverflow s i)
    (hi : i.sampleValid = true) (hlast : current.length + 1 = 2 ^ windowLog2) :
    Windows (windows ++ [current ++ [i.sampleIn.toInt]]) [] (measure s i) := by
  rw [measure, hi, (h.windowLast_iff hi).2 hlast]
  refine ⟨?_, Nat.pow_pos (by decide), rfl, rfl, rfl, ?_, ?_⟩
  · intro w hw
    rcases List.mem_append.1 hw with hold | hnew
    · exact h.full w hold
    · rw [List.mem_singleton.1 hnew, List.length_append, List.length_singleton]
      exact hlast
  · rw [List.getLastD_concat, peak_snoc, ← h.peakWork]
    exact toNat_peakNext s i
  · -- `rms_power` takes the low bits of the shifted sum.
    have hrms : (powerNext s i >>> windowLog2).toNat =
        (powerNext s i).toNat / 2 ^ windowLog2 := by
      rw [BitVec.toNat_ushiftRight, Nat.shiftRight_eq_div_pow]
    rw [List.getLastD_concat, power_snoc, ← h.powerAcc, ← hno.powerNext, ← hrms]
    simp only [if_true, BitVec.toNat_setWidth]
    rw [hrms]
    exact Nat.mod_eq_of_lt hno.rmsPower

theorem measure_clipCount (s : State windowLog2) (i : Inputs) :
    (measure s i).clipCount = s.clipCount := by
  unfold measure
  split_ifs <;> rfl

end Step

/-- The samples of a run, cut into windows. -/
def Cut (is : List Inputs) (s : State windowLog2) : Prop :=
  ∃ windows current, samples is = windows.flatten ++ current ∧ Windows windows current s ∧
    ∀ i, NoOverflow s i

theorem Cut.step {is : List Inputs} {s : State windowLog2} (h : Cut is s)
    (hlog : windowLog2 ≤ 32) {i : Inputs} (hrst : i.rst = false) :
    Cut (is ++ [i]) (AdcLevelMonitor.step s i) := by
  obtain ⟨windows, current, hsamples, hwindows, -⟩ := h
  have hcount := hwindows.count i
  have hno := hcount.noOverflow hlog (natAbs_le_of_samples hsamples) i
  have hstep : AdcLevelMonitor.step s i = measure (AdcLevelMonitor.count s i) i := by
    simp [AdcLevelMonitor.step, hrst]
  -- Whatever the new windows are, nothing overflows in them either.
  have hdone : ∀ (windows' : List (List Int)) (current' : List Int),
      samples (is ++ [i]) = windows'.flatten ++ current' →
        Windows windows' current' (measure (AdcLevelMonitor.count s i) i) →
          Cut (is ++ [i]) (AdcLevelMonitor.step s i) := by
    intro windows' current' hsamples' hwindows'
    rw [hstep]
    exact ⟨windows', current', hsamples', hwindows',
      hwindows'.noOverflow hlog (natAbs_le_of_samples hsamples')⟩
  cases hi : i.sampleValid with
  | false =>
      apply hdone windows current
      · simpa [samples_snoc, hi] using hsamples
      · rw [measure, hi]
        exact hcount
  | true =>
      by_cases hlast : current.length + 1 = 2 ^ windowLog2
      · apply hdone _ _ _ (hcount.last hno hi hlast)
        simp [samples_snoc, hi, hsamples]
      · apply hdone _ _ _ (hcount.more hno hi hlast)
        simp [samples_snoc, hi, hsamples]

/-- After every run out of reset, with up to `2 ^ 32` samples a window, the reports are those of the
last full window, and nothing overflows. -/
theorem windows_exact (hlog : windowLog2 ≤ 32) {is : List Inputs} (his : ∀ i ∈ is, i.rst = false) :
    ∃ windows current, samples is = windows.flatten ++ current ∧
      Windows windows current (runFrom step (resetState windowLog2) is) ∧
        ∀ i, NoOverflow (runFrom step (resetState windowLog2) is) i := by
  have hrun : ∀ is, Along step (fun _ i => i.rst = false) (resetState windowLog2) is →
      Cut is (runFrom step (resetState windowLog2) is) := by
    apply history_invariant
    · exact ⟨[], [], rfl, windows_resetState, windows_resetState.noOverflow hlog (by simp)⟩
    · intro is i h hrst
      exact h.step hlog hrst
  exact hrun is (along_of_forall (fun _ => his))

/-- Windows of two: the most negative sample, a gap with a clear, a three, and a five left over. -/
def gappedRun : List Inputs :=
  [⟨false, false, 0x8000, true, false, false⟩, ⟨false, true, 7, false, false, false⟩,
    ⟨false, false, 3, true, false, false⟩, ⟨false, false, 5, true, false, false⟩]

theorem windows_exact_gappedRun :
    (∃ windows current, samples gappedRun = windows.flatten ++ current ∧
      Windows windows current (runFrom step (resetState 1) gappedRun) ∧
        ∀ i, NoOverflow (runFrom step (resetState 1) gappedRun) i) ∧
      (runFrom step (resetState 1) gappedRun).peakAbs.toNat = 32768 ∧
        (runFrom step (resetState 1) gappedRun).rmsPower.toNat = (32768 ^ 2 + 3 ^ 2) / 2 :=
  ⟨windows_exact (by decide) (by decide), by decide, by decide⟩

end AdcLevelMonitor

/-! ## Clipped samples -/

namespace SdrPlCore

open Lib

/-- The code of the selected channel is the least or the greatest of its number format. -/
def railCode (i : Inputs) : Bool :=
  let code := if i.ddc0AdcChannel then i.adcCh1Sample14 else i.adcCh0Sample14
  if i.adcOffsetBinary then code == 0 || code == 0x3fff else code == 0x2000 || code == 0x1fff

/-- An active sample sits at a rail. -/
def railSample (i : Inputs) : Bool :=
  adcActiveValid i && railCode i

/-- The core with the number of clip events since the last reset or clear. -/
def countClips (sn : State × Nat) (i : Inputs) : State × Nat :=
  (step sn.1 i,
    if i.rst || i.clearStatusCounts then 0
    else sn.2 + (railSample i).toNat + (DdcCore.iqClip sn.1.ddc).toNat)

def ClipCounted (sn : State × Nat) : Prop :=
  sn.1.levels.clipCount = BitVec.ofNat 32 sn.2

/-- A converted code never reaches the threshold. -/
theorem clipHit_levelInputs (s : State) (i : Inputs) :
    AdcLevelMonitor.clipHit (levelInputs s i) = false := by
  have habs : (AdcLevelMonitor.absSample (levelInputs s i)).toNat = (adcSigned i).toInt.natAbs :=
    AdcLevelMonitor.toNat_absSample (levelInputs s i)
  have hbounds : -8192 ≤ (adcSigned i).toInt ∧ (adcSigned i).toInt ≤ 8191 :=
    adcFormatConvert_bounds _ _
  have hlow : ¬AdcLevelMonitor.CLIP_LEVEL ≤ AdcLevelMonitor.absSample (levelInputs s i) := by
    have hlevel : AdcLevelMonitor.CLIP_LEVEL.toNat = 32512 := by decide
    rw [BitVec.le_def, hlevel, habs]
    omega
  simp [AdcLevelMonitor.clipHit, hlow]

/-- So the counter counts saturated pairs alone. -/
theorem clipCount_step (s : State) (i : Inputs) :
    (step s i).levels.clipCount =
      if i.rst || i.clearStatusCounts then 0
      else s.levels.clipCount + BitVec.ofNat 32 (DdcCore.iqClip s.ddc).toNat := by
  have hhit := clipHit_levelInputs s i
  have hstep : (step s i).levels.clipCount =
      (AdcLevelMonitor.step s.levels (levelInputs s i)).clipCount := rfl
  rw [hstep, AdcLevelMonitor.step]
  cases hrst : i.rst with
  | true =>
      simp [levelInputs, hrst, AdcLevelMonitor.resetState]
  | false =>
      have hin : (levelInputs s i).rst = false := hrst
      have hclearIn : (levelInputs s i).clearCounts = i.clearStatusCounts := rfl
      have hextra : (levelInputs s i).extraClip = DdcCore.iqClip s.ddc := rfl
      rw [hin, if_neg (by decide), AdcLevelMonitor.measure_clipCount]
      cases hclear : i.clearStatusCounts <;> cases hclip : DdcCore.iqClip s.ddc <;>
        simp [AdcLevelMonitor.count, hhit, hclearIn, hextra, hclear, hclip]

theorem clipCounted_step (sn : State × Nat) (i : Inputs) (h : ClipCounted sn) :
    ClipCounted (countClips sn i) ↔
      i.rst = true ∨ i.clearStatusCounts = true ∨ railSample i = false := by
  rw [ClipCounted] at h
  rw [ClipCounted, countClips, clipCount_step]
  cases hrst : i.rst <;> cases hclear : i.clearStatusCounts
  · -- Neither reset nor clear: the two counts differ by the rail sample.
    rw [Bool.or_self, if_neg (by decide), if_neg (by decide), h, BitVec.ofNat_add, BitVec.ofNat_add]
    cases hrail : railSample i <;> cases hclip : DdcCore.iqClip sn.1.ddc <;> simp
  · simp
  · simp
  · simp

/-- The clip count is right in every state of a run exactly when no active sample sits at a rail in a
cycle that neither resets nor clears. -/
theorem clip_count_iff (is : List Inputs) :
    (∀ done, done <+: is → ClipCounted (runFrom countClips (resetState, 0) done)) ↔
      ∀ i ∈ is, i.rst = true ∨ i.clearStatusCounts = true ∨ railSample i = false := by
  rw [← along_iff_forall]
  have hstart : ClipCounted (resetState, 0) := rfl
  exact forall_prefix_iff_along clipCounted_step hstart is

/-- One active sample at the top of the two's complement range, in a core that is otherwise idle. -/
def topSample : Inputs where
  rst := false
  coreEnable := true
  clearStatusCounts := false
  adcOffsetBinary := false
  adcCh0Sample14 := 0x1fff
  adcCh1Sample14 := 0
  adcSampleValid := true
  adcOr := false
  adcLocked := true
  ddc0Enable := false
  ddc0AdcChannel := false
  ddc0ConfigChanged := false
  ddc0FreqWord := 0
  ddc0DecimRate := 1
  ddc0GainShift := 0
  ddc0FrequencyHz := 0
  ddc0IqSampleRateHz := 0
  ddc0BandwidthHz := 0
  ddc0GainDbQ8 := 0
  mAxisIqTready := true

theorem not_clipCounted_topSample :
    ¬ClipCounted (runFrom countClips (resetState, 0) [topSample]) := by
  have hcount : (runFrom countClips (resetState, 0) [topSample]).2 = 1 := by decide
  have hclip : (runFrom countClips (resetState, 0) [topSample]).1.levels.clipCount = 0 := by
    decide
  rw [ClipCounted, hcount, hclip]
  decide

end SdrPlCore
end Fpga
end Sdr
