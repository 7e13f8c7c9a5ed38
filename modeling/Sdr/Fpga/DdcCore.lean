import Sdr.Lib.Machine
import Sdr.Fpga.Nco
import Sdr.Fpga.CicDecimator

/-!
# DdcCore — the digital down-converter

Models of `mixer_real_to_iq.v`, `iq_gain_sat.v` and `ddc_core.v` in `fpga/rtl/dsp`, with the widths of
`sdr_pl_core` and without the compensation filter (`USE_FIR = 0`).  The converter never waits: a sample
that finds the output register occupied is counted and dropped.
-/

namespace Sdr
namespace Fpga

/-! ## `mixer_real_to_iq` -/

namespace MixerRealToIq

structure State where
  iOut : BitVec 32
  qOut : BitVec 32
  validOut : Bool

def resetState : State where
  iOut := 0
  qOut := 0
  validOut := false

/-- A product of signed operands, in the 32 bits of `prod_i` and `prod_q`. -/
def prod (sampleIn trigIn : BitVec 16) : BitVec 32 :=
  sampleIn.signExtend 32 * trigIn.signExtend 32

/-- A concatenation is unsigned, so `>>>` fills with zeros here. -/
def iScaled (sampleIn cosIn : BitVec 16) : BitVec 32 :=
  prod sampleIn cosIn >>> 15

def qScaled (sampleIn sinIn : BitVec 16) : BitVec 32 :=
  -(prod sampleIn sinIn >>> 15)

def step (s : State) (rst : Bool) (sampleIn cosIn sinIn : BitVec 16) (validIn : Bool) : State :=
  if rst then
    resetState
  else if validIn then
    { iOut := iScaled sampleIn cosIn, qOut := qScaled sampleIn sinIn, validOut := true }
  else
    { s with validOut := false }

end MixerRealToIq

/-! ## `iq_gain_sat` -/

namespace IqGainSat

structure State where
  iOut : BitVec 16
  qOut : BitVec 16
  validOut : Bool
  clipped : Bool

def resetState : State where
  iOut := 0
  qOut := 0
  validOut := false
  clipped := false

def MAX_OUT_EXT : BitVec 56 := 0x7fff

def MIN_OUT_EXT : BitVec 56 := -0x8000

/-- Values of the function are signed, so `>>>` and the comparisons are. -/
def shiftSat (value : BitVec 56) (shift : BitVec 6) : BitVec 16 :=
  let shifted := value.sshiftRight shift.toNat
  if MAX_OUT_EXT.slt shifted then 0x7fff
  else if shifted.slt MIN_OUT_EXT then 0x8000
  else shifted.extractLsb' 0 16

def isClipped (value : BitVec 56) (shift : BitVec 6) : Bool :=
  let shifted := value.sshiftRight shift.toNat
  MAX_OUT_EXT.slt shifted || shifted.slt MIN_OUT_EXT

def step (s : State) (rst : Bool) (iIn qIn : BitVec 56) (validIn : Bool) (gainShift : BitVec 6) :
    State :=
  if rst then
    resetState
  else if validIn then
    { iOut := shiftSat iIn gainShift
      qOut := shiftSat qIn gainShift
      validOut := true
      clipped := isClipped iIn gainShift || isClipped qIn gainShift }
  else
    { s with validOut := false, clipped := false }

end IqGainSat

/-! ## `ddc_core` -/

namespace DdcCore

open Lib

structure State where
  /-- `sample_delay[0]` to `sample_delay[15]`. -/
  sampleDelay : List (BitVec 16)
  nco : Nco.State
  mixer : MixerRealToIq.State
  cicI : CicDecimator.State 56
  cicQ : CicDecimator.State 56
  gainSat : IqGainSat.State
  mAxisTdata : BitVec 32
  mAxisTvalid : Bool
  overflowCount : BitVec 32
  sampleCount : BitVec 32

structure Inputs where
  rst : Bool
  enable : Bool
  sampleIn : BitVec 16
  sampleValid : Bool
  freqWord : BitVec 32
  decimRate : BitVec 16
  gainShift : BitVec 6
  mAxisTready : Bool

def resetState : State where
  sampleDelay := List.replicate 16 0
  nco := Nco.resetState
  mixer := MixerRealToIq.resetState
  cicI := CicDecimator.resetState 3 56
  cicQ := CicDecimator.resetState 3 56
  gainSat := IqGainSat.resetState
  mAxisTdata := 0
  mAxisTvalid := false
  overflowCount := 0
  sampleCount := 0

def loadOutput (s : State) (i : Inputs) : Bool :=
  !s.mAxisTvalid || i.mAxisTready

def iqClip (s : State) : Bool :=
  s.gainSat.clipped

/-- The delay line, the oscillator, the mixer, the filters and the gain stage: everything that does
not see the output register. -/
def pipeline (s : State) (i : Inputs) : State :=
  { s with
    sampleDelay :=
      if i.rst then List.replicate 16 0 else i.sampleIn :: s.sampleDelay.dropLast
    nco := Nco.step s.nco i.rst i.enable i.sampleValid i.freqWord
    mixer :=
      MixerRealToIq.step s.mixer i.rst (s.sampleDelay.getLastD 0) s.nco.cordic.cosOut
        s.nco.cordic.sinOut s.nco.cordic.validOut
    cicI := CicDecimator.step s.cicI i.rst s.mixer.iOut s.mixer.validOut i.decimRate
    cicQ := CicDecimator.step s.cicQ i.rst s.mixer.qOut s.mixer.validOut i.decimRate
    gainSat :=
      IqGainSat.step s.gainSat i.rst s.cicI.sampleOut s.cicQ.sampleOut
        (s.cicI.validOut && s.cicQ.validOut) i.gainShift }

/-- I is the low half, so that the payload bytes are I followed by Q. -/
def packed (s : State) : BitVec 32 :=
  s.gainSat.qOut ++ s.gainSat.iOut

/-- The output register: `r` is where the block writes, `s` what it reads. -/
def output (s : State) (i : Inputs) (r : State) : State :=
  if i.rst then
    { r with mAxisTdata := 0, mAxisTvalid := false, overflowCount := 0, sampleCount := 0 }
  else if s.gainSat.validOut then
    if loadOutput s i then
      { r with
        mAxisTdata := packed s
        mAxisTvalid := true
        sampleCount := s.sampleCount + 1 }
    else
      { r with overflowCount := s.overflowCount + 1 }
  else if s.mAxisTvalid && i.mAxisTready then
    { r with mAxisTvalid := false }
  else
    r

def step (s : State) (i : Inputs) : State :=
  output s i (pipeline s i)

/-- The output block writes its register and the two counters, and nothing else. -/
theorem step_frame (s : State) (i : Inputs) :
    step s i =
      { pipeline s i with
        mAxisTdata := (step s i).mAxisTdata
        mAxisTvalid := (step s i).mAxisTvalid
        overflowCount := (step s i).overflowCount
        sampleCount := (step s i).sampleCount } := by
  unfold step output
  split_ifs <;> rfl

end DdcCore

end Fpga
end Sdr
