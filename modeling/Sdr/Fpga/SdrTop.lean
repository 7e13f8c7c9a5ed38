import Sdr.Fpga.ConfigCrossing
import Sdr.Fpga.SdrPlCore

/-!
# SdrTop — the register file, the configuration crossing and the signal path

The wiring of `fpga/rtl/top/sdr_top.v` between `u_axi_lite_slave`, `u_stream_cfg_sync` and
`u_sdr_pl_core`.  The configuration reaches the signal path as `dst_data` of the crossing and its change
as `dst_update`, which is high one ADC cycle before `dst_data` moves.  One step is one rising edge of
`s_axi_aclk` or of `adc_sample_clk`.
-/

namespace Sdr
namespace Fpga
namespace SdrTop

open Lib

/-! ## The unpacked configuration -/

section Unpack

variable (cfg : BitVec 202)

def coreEnableAdc : Bool := cfg.getLsbD 0

def adcOffsetBinaryAdc : Bool := cfg.getLsbD 1

def ddc0EnableAdc : Bool := cfg.getLsbD 2

def ddc0AdcChannelAdc : Bool := cfg.getLsbD 3

def ddc0FreqWordAdc : BitVec 32 := cfg.extractLsb' 4 32

def ddc0DecimRateAdc : BitVec 16 := cfg.extractLsb' 36 16

def ddc0GainShiftAdc : BitVec 6 := cfg.extractLsb' 52 6

def ddc0FrequencyHzAdc : BitVec 64 := cfg.extractLsb' 58 64

def ddc0IqSampleRateHzAdc : BitVec 32 := cfg.extractLsb' 122 32

def ddc0BandwidthHzAdc : BitVec 32 := cfg.extractLsb' 154 32

def ddc0GainDbQ8Adc : BitVec 16 := cfg.extractLsb' 186 16

end Unpack

/-- The enables arrive where they were packed. -/
theorem enables_cfgCtrl (r : CsrRegfile.Regs) :
    coreEnableAdc (ConfigCrossing.cfgCtrl r) = r.coreEnable ∧
      ddc0EnableAdc (ConfigCrossing.cfgCtrl r) = r.ddc0Enable := by
  constructor
  · rw [coreEnableAdc, ConfigCrossing.cfgCtrl, BitVec.getLsbD_append]
    simp
  · -- The two bits below it are the offset flag and the core enable.
    rw [ddc0EnableAdc, ConfigCrossing.cfgCtrl, BitVec.getLsbD_append, if_neg (by decide),
      BitVec.getLsbD_append, if_neg (by decide), BitVec.getLsbD_append]
    simp

/-! ## One machine -/

/-- The ports of the signal path that do not come from the crossing. -/
structure AdcPorts where
  adcCh0Sample14 : BitVec 14
  adcCh1Sample14 : BitVec 14
  adcSampleValid : Bool
  clearCountsAdc : Bool
  iqAdcTready : Bool

structure State where
  ctrl : ConfigCrossing.State
  core : SdrPlCore.State

def resetState : State where
  ctrl := ConfigCrossing.resetState
  core := SdrPlCore.resetState

/-- `adc_locked` is `adc_sample_valid`, and `adc_or` is tied off. -/
def coreInputs (sync : ConfigSync.State 202) (rst : Bool) (p : AdcPorts) : SdrPlCore.Inputs where
  rst := rst
  coreEnable := coreEnableAdc sync.dstData
  clearStatusCounts := p.clearCountsAdc
  adcOffsetBinary := adcOffsetBinaryAdc sync.dstData
  adcCh0Sample14 := p.adcCh0Sample14
  adcCh1Sample14 := p.adcCh1Sample14
  adcSampleValid := p.adcSampleValid
  adcOr := false
  adcLocked := p.adcSampleValid
  ddc0Enable := ddc0EnableAdc sync.dstData
  ddc0AdcChannel := ddc0AdcChannelAdc sync.dstData
  ddc0ConfigChanged := ConfigSync.dstUpdate sync
  ddc0FreqWord := ddc0FreqWordAdc sync.dstData
  ddc0DecimRate := ddc0DecimRateAdc sync.dstData
  ddc0GainShift := ddc0GainShiftAdc sync.dstData
  ddc0FrequencyHz := ddc0FrequencyHzAdc sync.dstData
  ddc0IqSampleRateHz := ddc0IqSampleRateHzAdc sync.dstData
  ddc0BandwidthHz := ddc0BandwidthHzAdc sync.dstData
  ddc0GainDbQ8 := ddc0GainDbQ8Adc sync.dstData
  mAxisIqTready := p.iqAdcTready

inductive Edge
  | axi (rst : Bool) (ports : AxiLiteSlave.Ports)
  | adc (rst : Bool) (ports : AdcPorts)

def step (s : State) : Edge → State
  | .axi rst ports => { s with ctrl := ConfigCrossing.step s.ctrl (.axi rst ports) }
  | .adc rst ports =>
      { ctrl := ConfigCrossing.step s.ctrl (.adc rst)
        core := SdrPlCore.step s.core (coreInputs s.ctrl.sync rst ports) }

/-- What the signal path is given at an ADC edge. -/
def fed (s : State) : Edge → List SdrPlCore.Inputs
  | .axi _ _ => []
  | .adc rst ports => [coreInputs s.ctrl.sync rst ports]

def run (es : List Edge) : State :=
  runFrom step resetState es

/-- The inputs of the signal path, one per ADC cycle of the run. -/
def coreInputsOf (es : List Edge) : List SdrPlCore.Inputs :=
  emits step fed resetState es

/-- The ADC clock domain is out of reset. -/
def NoAdcReset (es : List Edge) : Prop :=
  ∀ i ∈ coreInputsOf es, i.rst = false

instance (es : List Edge) : Decidable (NoAdcReset es) :=
  inferInstanceAs (Decidable (∀ i ∈ coreInputsOf es, i.rst = false))

end SdrTop
end Fpga
end Sdr
