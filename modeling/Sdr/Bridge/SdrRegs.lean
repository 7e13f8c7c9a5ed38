import Mathlib.Algebra.Order.Round
import Mathlib.Data.Rat.Floor
import Sdr.Fpga.CsrRegfile

/-!
# SdrRegs — register offsets and the two derived register values

Model of `ps/baremetal/src/sdr_regs.h`.  The offsets are the addresses `csr_regfile` decodes.  The
tuning word is the carrier frequency as a fraction of the ADC rate in 32 bits, rounded to the
nearest integer, and the decimation divides the ADC rate exactly for every supported output rate.
-/

namespace Sdr
namespace Bridge

open Fpga.CsrRegfile

/-! ## Offsets and bits -/

def sdrRegCoreId : BitVec 32 := 0x000
def sdrRegCoreVersion : BitVec 32 := 0x004
def sdrRegControl : BitVec 32 := 0x008
def sdrRegAdcStatus : BitVec 32 := 0x00c
def sdrRegAdcPeak : BitVec 32 := 0x010
def sdrRegAdcRms : BitVec 32 := 0x014
def sdrRegOrCount : BitVec 32 := 0x018
def sdrRegClipCount : BitVec 32 := 0x01c
def sdrRegClearCounts : BitVec 32 := 0x020
def sdrRegAdcTimestampL : BitVec 32 := 0x024
def sdrRegAdcTimestampH : BitVec 32 := 0x028
def sdrRegAdcDebugFlags : BitVec 32 := 0x02c
def sdrRegAdcDvalidCount : BitVec 32 := 0x030
def sdrRegAdcCfgUpdateCount : BitVec 32 := 0x034
def sdrRegDdc0Control : BitVec 32 := 0x100
def sdrRegDdc0FreqWord : BitVec 32 := 0x104
def sdrRegDdc0Decim : BitVec 32 := 0x108
def sdrRegDdc0Gain : BitVec 32 := 0x10c
def sdrRegDdc0Samples : BitVec 32 := 0x110
def sdrRegDdc0Overflow : BitVec 32 := 0x114
def sdrRegDdc0FreqHzL : BitVec 32 := 0x118
def sdrRegDdc0FreqHzH : BitVec 32 := 0x11c
def sdrRegDdc0IqRate : BitVec 32 := 0x120
def sdrRegDdc0Bandwidth : BitVec 32 := 0x124
def sdrRegDdc0GainDb : BitVec 32 := 0x128

def sdrControlCoreEnable : BitVec 32 := 0x1
def sdrControlSoftReset : BitVec 32 := 0x2
def sdrAdcStatusLocked : BitVec 32 := 0x2
def sdrDdcControlEnable : BitVec 32 := 0x1
def sdrDdcControlAdcChannel : BitVec 32 := 0x2

def sdrProtocolVersion : Int := 1

/-! ## Derived values -/

def sdrAdcSampleRateHz : BitVec 64 := 250000000

def sdrFreqWord (frequencyHz : BitVec 64) : BitVec 32 :=
  (((frequencyHz <<< 32) + sdrAdcSampleRateHz / 2) / sdrAdcSampleRateHz).setWidth 32

def sdrDecimationForRate (iqSampleRateHz : BitVec 32) : BitVec 32 :=
  if iqSampleRateHz = 0 then 0
  else (sdrAdcSampleRateHz / iqSampleRateHz.setWidth 64).setWidth 32

/-- Below the ADC rate neither the shift nor the sum leaves 64 bits, nor the quotient 32. -/
theorem toNat_sdrFreqWord {f : BitVec 64} (h : f.toNat ≤ 108000000) :
    (sdrFreqWord f).toNat = (f.toNat * 2 ^ 32 + 125000000) / 250000000 := by
  have hshift : (f <<< 32).toNat = f.toNat * 2 ^ 32 := by
    rw [BitVec.toNat_shiftLeft, Nat.shiftLeft_eq]
    exact Nat.mod_eq_of_lt (by omega)
  have hsum : (f <<< 32 + sdrAdcSampleRateHz / 2).toNat = f.toNat * 2 ^ 32 + 125000000 := by
    rw [BitVec.toNat_add, hshift]
    exact Nat.mod_eq_of_lt (by simp [sdrAdcSampleRateHz]; omega)
  rw [sdrFreqWord, BitVec.toNat_setWidth, BitVec.toNat_udiv, hsum]
  -- The quotient is below `2 ^ 32` because the frequency is below the ADC rate.
  refine Nat.mod_eq_of_lt ?_
  show (f.toNat * 2 ^ 32 + 125000000) / 250000000 < 2 ^ 32
  omega

/-- The tuning word is the integer nearest to the frequency's share of the ADC rate. -/
theorem sdrFreqWord_eq_round {f : BitVec 64} (h : f.toNat ≤ 108000000) :
    ((sdrFreqWord f).toNat : ℤ) = round ((f.toNat * 2 ^ 32 : ℚ) / 250000000) := by
  -- Rounding is the floor after adding one half; half the ADC rate is that half, cleared of the
  -- denominator.
  have hhalf : (f.toNat * 2 ^ 32 : ℚ) / 250000000 + 1 / 2 =
      ((f.toNat * 2 ^ 32 + 125000000 : ℕ) : ℚ) / (250000000 : ℕ) := by
    push_cast
    ring
  rw [round_eq, hhalf, Rat.floor_natCast_div_natCast, toNat_sdrFreqWord h]
  exact Int.natCast_ediv _ _

theorem sdrDecimationForRate_mul {r : BitVec 32}
    (h : r = 125000 ∨ r = 250000 ∨ r = 500000 ∨ r = 1000000) :
    (sdrDecimationForRate r).toNat * r.toNat = 250000000 := by
  rcases h with rfl | rfl | rfl | rfl <;> decide

end Bridge
end Sdr
