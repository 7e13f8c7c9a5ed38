import Sdr.Bridge.SdrControl
import Sdr.Fpga.AdcFrontend
import Sdr.Fpga.CsrRegfile
import Sdr.Lib.Machine
import Sdr.Lib.SplitCounter

/-!
# StatusRead — the status registers as the bridge reads them

`sdr_hw_read_status` reads one register after the other while the fabric goes on.  The sample
counter has 64 bits and is read in two halves without being latched, so that a carry into the high
half between the two reads tears the value.  `adcTimestamp_had_iff` says when it does.
-/

namespace Sdr
namespace Bridge

open Lib
open Fpga.CsrRegfile

/-- The operand of `|` that is evaluated first, which C leaves to the compiler. -/
inductive FirstOperand where
  | low
  | high
  deriving DecidableEq, Repr

/-- `sdr_hw_read_status`; `readReg n offset` is what `sdr_hw_read_reg` returns at access `n`. -/
def sdrHwReadStatus (first : FirstOperand) (readReg : Nat → BitVec 32 → BitVec 32) : HwStatus where
  coreId := readReg 0 sdrRegCoreId
  coreVersion := readReg 1 sdrRegCoreVersion
  control := readReg 2 sdrRegControl
  adcStatus := readReg 3 sdrRegAdcStatus
  adcPeak := readReg 4 sdrRegAdcPeak
  adcRms := readReg 5 sdrRegAdcRms
  orCount := readReg 6 sdrRegOrCount
  clipCount := readReg 7 sdrRegClipCount
  adcTimestamp :=
    match first with
    | .low =>
        let low := readReg 8 sdrRegAdcTimestampL
        let high := readReg 9 sdrRegAdcTimestampH
        low.setWidth 64 ||| high.setWidth 64 <<< 32
    | .high =>
        let high := readReg 8 sdrRegAdcTimestampH
        let low := readReg 9 sdrRegAdcTimestampL
        low.setWidth 64 ||| high.setWidth 64 <<< 32
  adcDebugFlags := readReg 10 sdrRegAdcDebugFlags
  adcDvalidCount := readReg 11 sdrRegAdcDvalidCount
  adcCfgUpdateCount := readReg 12 sdrRegAdcCfgUpdateCount
  ddc0Samples := readReg 13 sdrRegDdc0Samples
  ddc0Overflow := readReg 14 sdrRegDdc0Overflow

/-! ## The fabric during the accesses -/

/-- The counter after clock cycles with these values of `sample_valid`, and no reset. -/
def countSamples : BitVec 64 → List Bool → BitVec 64 :=
  runFrom (fun timestamp sampleValid => Fpga.timestampCounter timestamp false sampleValid)

/-- The fabric while the registers are read: `sample_valid` in the clock cycles before each access,
back to the access before it, and whatever the register file shows besides the counter. -/
structure Fabric where
  start : BitVec 64
  cycles : Nat → List Bool
  regs : Nat → Regs
  status : Nat → Status

namespace Fabric

/-- The counter at access `n`. -/
def counter (fabric : Fabric) : Nat → BitVec 64
  | 0 => countSamples fabric.start (fabric.cycles 0)
  | n + 1 => countSamples (counter fabric n) (fabric.cycles (n + 1))

def readReg (fabric : Fabric) (n : Nat) (offset : BitVec 32) : BitVec 32 :=
  rdData (fabric.regs n) { fabric.status n with adcTimestamp := fabric.counter n }
    (offset.setWidth 12)

/-- The counter showed `value` between the two accesses to its halves, or at one of them. -/
def HadBetweenReads (fabric : Fabric) (value : BitVec 64) : Prop :=
  ∃ done, done <+: fabric.cycles 9 ∧ value = countSamples (fabric.counter 8) done

end Fabric

section Counter

variable {timestamp : BitVec 64}

theorem toNat_countSamples (timestamp : BitVec 64) (cycles : List Bool) :
    (countSamples timestamp cycles).toNat = (timestamp.toNat + cycles.count true) % 2 ^ 64 := by
  induction cycles generalizing timestamp with
  | nil =>
      exact (Nat.mod_eq_of_lt timestamp.isLt).symm
  | cons sampleValid cycles ih =>
      have hstep : countSamples timestamp (sampleValid :: cycles) =
          countSamples (Fpga.timestampCounter timestamp false sampleValid) cycles := rfl
      rw [hstep, ih]
      cases sampleValid with
      | false =>
          simp [Fpga.timestampCounter]
      | true =>
          simp [Fpga.timestampCounter, BitVec.toNat_add, Nat.add_assoc, Nat.add_comm 1]

/-- Every number of samples up to those of the cycles is that of an earlier moment. -/
theorem exists_prefix_count {cycles : List Bool} {k : Nat} (h : k ≤ cycles.count true) :
    ∃ done, done <+: cycles ∧ done.count true = k := by
  induction cycles using List.reverseRecOn with
  | nil =>
      exact ⟨[], List.prefix_rfl, by simpa [eq_comm] using h⟩
  | append_singleton cycles sampleValid ih =>
      rcases Nat.lt_or_ge (cycles.count true) k with hlt | hle
      · refine ⟨_, List.prefix_rfl, ?_⟩
        cases sampleValid <;> simp at h ⊢ <;> omega
      · rcases ih hle with ⟨done, hdone, hcount⟩
        exact ⟨done, hdone.trans (List.prefix_append _ _), hcount⟩

theorem exists_prefix_countSamples_iff (cycles : List Bool) (value : BitVec 64) :
    (∃ done, done <+: cycles ∧ value = countSamples timestamp done) ↔
      SplitCounter.Had (2 ^ 32) timestamp.toNat (cycles.count true) value.toNat := by
  constructor
  · rintro ⟨done, hdone, rfl⟩
    exact ⟨done.count true, hdone.sublist.count_le true, (toNat_countSamples _ _).symm⟩
  · rintro ⟨k, hk, hvalue⟩
    rcases exists_prefix_count hk with ⟨done, hdone, rfl⟩
    refine ⟨done, hdone, BitVec.eq_of_toNat_eq ?_⟩
    rw [toNat_countSamples, ← hvalue, ← pow_add]

end Counter

theorem toNat_halves (low high : BitVec 32) :
    (low.setWidth 64 ||| high.setWidth 64 <<< 32).toNat =
      SplitCounter.join (2 ^ 32) high.toNat low.toNat := by
  have hjoin : low.setWidth 64 ||| high.setWidth 64 <<< 32 = high ++ low := by
    ext i hi
    simp
    grind
  rw [hjoin, BitVec.toNat_append, ← Nat.shiftLeft_add_eq_or_of_lt low.isLt, Nat.shiftLeft_eq,
    SplitCounter.join]
  omega

namespace Fabric

theorem toNat_counter_succ (fabric : Fabric) (n : Nat) :
    (fabric.counter (n + 1)).toNat =
      ((fabric.counter n).toNat + (fabric.cycles (n + 1)).count true) % (2 ^ 32 * 2 ^ 32) :=
  toNat_countSamples _ _

theorem toNat_readReg_low (fabric : Fabric) (n : Nat) :
    (fabric.readReg n sdrRegAdcTimestampL).toNat = (fabric.counter n).toNat % 2 ^ 32 := by
  have hreg : fabric.readReg n sdrRegAdcTimestampL = (fabric.counter n).extractLsb' 0 32 := rfl
  rw [hreg, BitVec.extractLsb'_toNat, Nat.shiftRight_zero]

theorem toNat_readReg_high (fabric : Fabric) (n : Nat) :
    (fabric.readReg n sdrRegAdcTimestampH).toNat = (fabric.counter n).toNat / 2 ^ 32 % 2 ^ 32 := by
  have hreg : fabric.readReg n sdrRegAdcTimestampH = (fabric.counter n).extractLsb' 32 32 := rfl
  rw [hreg, BitVec.extractLsb'_toNat, Nat.shiftRight_eq_div_pow]

end Fabric

/-- The timestamp of the status is a value the counter had between the two reads, in whichever order
they were made, exactly when the samples in between tear no carry apart. -/
theorem adcTimestamp_had_iff (first : FirstOperand) (fabric : Fabric) :
    fabric.HadBetweenReads (sdrHwReadStatus first fabric.readReg).adcTimestamp ↔
      SplitCounter.Untorn (2 ^ 32) (fabric.counter 8).toNat ((fabric.cycles 9).count true) := by
  -- The counter at the second read is that of the first with the samples in between added, and each
  -- of the two words is one digit of one of them.
  rw [Fabric.HadBetweenReads, exists_prefix_countSamples_iff]
  cases first with
  | low =>
      rw [sdrHwReadStatus, toNat_halves, fabric.toNat_readReg_low, fabric.toNat_readReg_high,
        fabric.toNat_counter_succ 8, Nat.mod_mul_right_div_self, Nat.mod_mod]
      exact SplitCounter.had_lowFirst_iff (by decide) _ _
  | high =>
      rw [sdrHwReadStatus, toNat_halves, fabric.toNat_readReg_low, fabric.toNat_readReg_high,
        fabric.toNat_counter_succ 8, Nat.mod_mul_right_mod]
      exact SplitCounter.had_highFirst_iff (by decide) _ _

/-- As long as the counter does not come round, these values are those from the first read's to the
second read's. -/
theorem hadBetweenReads_iff_le (fabric : Fabric) (value : BitVec 64)
    (h : (fabric.counter 8).toNat + (fabric.cycles 9).count true < 2 ^ 64) :
    fabric.HadBetweenReads value ↔ fabric.counter 8 ≤ value ∧ value ≤ fabric.counter 9 := by
  have hsecond : (fabric.counter 9).toNat =
      (fabric.counter 8).toNat + (fabric.cycles 9).count true :=
    (fabric.toNat_counter_succ 8).trans (Nat.mod_eq_of_lt h)
  rw [Fabric.HadBetweenReads, exists_prefix_countSamples_iff, SplitCounter.had_iff_between h,
    BitVec.le_def, BitVec.le_def, hsecond]

/-- A counter one sample short of a carry, and one sample between the two reads. -/
def carrying : Fabric where
  start := 0xffffffff
  cycles n := if n = 9 then [true] else []
  regs _ := Regs.reset
  status _ :=
    { adcLocked := true, adcOr := false, adcPeakAbs := 0, adcRmsPower := 0, adcOrCount := 0
      adcClipCount := 0, adcTimestamp := 0, adcDebugFlags := 0, adcDvalidCount := 0
      adcCfgUpdateCount := 0, ddc0SampleCount := 0, ddc0OverflowCount := 0 }

/-- The low half first gives almost twice the counter, the high half first gives zero. -/
theorem carrying_torn :
    (sdrHwReadStatus .low carrying.readReg).adcTimestamp = 0x1ffffffff ∧
      (sdrHwReadStatus .high carrying.readReg).adcTimestamp = 0 ∧
      ∀ first, ¬ carrying.HadBetweenReads (sdrHwReadStatus first carrying.readReg).adcTimestamp := by
  refine ⟨by decide, by decide, ?_⟩
  intro first
  rw [hadBetweenReads_iff_le carrying _ (by decide)]
  cases first with
  | low =>
      decide
  | high =>
      decide

end Bridge
end Sdr
