import Mathlib.Data.BitVec

/-!
# AdcFrontend — what happens to an ADC sample before the down-converter

Models of `adc/adc_format_convert.v`, `dsp/dc_offset_remove.v`, `monitor/adc_level_monitor.v` and
`stream/timestamp_counter.v` in `fpga/rtl`, at the widths `sdr_pl_core` instantiates them with.  Each
`step` is the `always @(posedge clk)` block of its file.
-/

namespace Sdr
namespace Fpga

/-- `adc_format_convert`: offset binary becomes two's complement by inverting the top bit. -/
def adcFormatConvert (adcSample : BitVec 14) (offsetBinary : Bool) : BitVec 16 :=
  let twosBits : BitVec 14 :=
    if offsetBinary then ~~~adcSample.extractLsb' 13 1 ++ adcSample.extractLsb' 0 13 else adcSample
  twosBits.signExtend 16

theorem adcFormatConvert_bounds (adcSample : BitVec 14) (offsetBinary : Bool) :
    -8192 ≤ (adcFormatConvert adcSample offsetBinary).toInt ∧
      (adcFormatConvert adcSample offsetBinary).toInt ≤ 8191 := by
  rw [adcFormatConvert, BitVec.toInt_signExtend_of_le (by decide)]
  exact ⟨BitVec.le_toInt _, Int.le_of_lt_add_one BitVec.toInt_lt⟩

/-! ## `dc_offset_remove` -/

namespace DcOffsetRemove

def AVG_SHIFT : Nat := 12

structure State where
  avgQ : BitVec 32
  sampleOut : BitVec 16
  sampleValidOut : Bool

def resetState : State where
  avgQ := 0
  sampleOut := 0
  sampleValidOut := false

def sampleQ (sampleIn : BitVec 16) : BitVec 32 :=
  sampleIn.signExtend 32 <<< AVG_SHIFT

def avgError (s : State) (sampleIn : BitVec 16) : BitVec 32 :=
  sampleQ sampleIn - s.avgQ

def avgSample (s : State) : BitVec 32 :=
  s.avgQ.sshiftRight AVG_SHIFT

def corrected (s : State) (sampleIn : BitVec 16) : BitVec 17 :=
  sampleIn.signExtend 17 - (avgSample s).extractLsb' 0 17

def step (s : State) (rst enable : Bool) (sampleIn : BitVec 16) (sampleValidIn : Bool) : State :=
  if rst then
    resetState
  else
    { avgQ :=
        if sampleValidIn && enable then s.avgQ + (avgError s sampleIn).sshiftRight AVG_SHIFT
        else s.avgQ
      sampleOut :=
        if sampleValidIn then
          if enable then (corrected s sampleIn).extractLsb' 0 16 else sampleIn
        else s.sampleOut
      sampleValidOut := sampleValidIn }

end DcOffsetRemove

/-! ## `adc_level_monitor` -/

namespace AdcLevelMonitor

variable {windowLog2 : Nat}

def CLIP_LEVEL : BitVec 16 := 0x7f00

structure State (windowLog2 : Nat) where
  windowCount : BitVec windowLog2
  peakWork : BitVec 16
  powerAcc : BitVec 64
  peakAbs : BitVec 16
  rmsPower : BitVec 32
  orCount : BitVec 32
  clipCount : BitVec 32
  adcOrD : Bool

structure Inputs where
  rst : Bool
  clearCounts : Bool
  sampleIn : BitVec 16
  sampleValid : Bool
  adcOr : Bool
  extraClip : Bool

def resetState (windowLog2 : Nat) : State windowLog2 where
  windowCount := 0
  peakWork := 0
  powerAcc := 0
  peakAbs := 0
  rmsPower := 0
  orCount := 0
  clipCount := 0
  adcOrD := false

/-- The most negative sample is its own absolute value. -/
def absSample (i : Inputs) : BitVec 16 :=
  if i.sampleIn.msb then ~~~i.sampleIn + 1 else i.sampleIn

def peakNext (s : State windowLog2) (i : Inputs) : BitVec 16 :=
  if s.peakWork < absSample i then absSample i else s.peakWork

def powerSample (i : Inputs) : BitVec 32 :=
  (absSample i).setWidth 32 * (absSample i).setWidth 32

def powerNext (s : State windowLog2) (i : Inputs) : BitVec 64 :=
  s.powerAcc + (powerSample i).setWidth 64

def windowLast (s : State windowLog2) (i : Inputs) : Bool :=
  i.sampleValid && (s.windowCount == BitVec.allOnes windowLog2)

def clipHit (i : Inputs) : Bool :=
  i.sampleValid && decide (CLIP_LEVEL ≤ absSample i)

def orRise (s : State windowLog2) (i : Inputs) : Bool :=
  i.adcOr && !s.adcOrD

/-- The part of the block that counts events. -/
def count (s : State windowLog2) (i : Inputs) : State windowLog2 :=
  if i.clearCounts then
    { s with orCount := 0, clipCount := 0, adcOrD := i.adcOr }
  else
    { s with
      orCount := if orRise s i then s.orCount + 1 else s.orCount
      clipCount := if clipHit i || i.extraClip then s.clipCount + 1 else s.clipCount
      adcOrD := i.adcOr }

/-- The part that measures windows of `2 ^ windowLog2` samples. -/
def measure (s : State windowLog2) (i : Inputs) : State windowLog2 :=
  if i.sampleValid then
    if windowLast s i then
      { s with
        peakAbs := peakNext s i
        rmsPower := (powerNext s i >>> windowLog2).setWidth 32
        windowCount := 0
        peakWork := 0
        powerAcc := 0 }
    else
      { s with
        windowCount := s.windowCount + 1
        peakWork := peakNext s i
        powerAcc := powerNext s i }
  else
    s

def step (s : State windowLog2) (i : Inputs) : State windowLog2 :=
  -- The two parts assign different registers, and `measure` reads none that `count` assigns.
  if i.rst then resetState windowLog2 else measure (count s i) i

end AdcLevelMonitor

/-! ## `timestamp_counter` -/

def timestampCounter (timestamp : BitVec 64) (rst sampleValid : Bool) : BitVec 64 :=
  if rst then 0 else if sampleValid then timestamp + 1 else timestamp

end Fpga
end Sdr
