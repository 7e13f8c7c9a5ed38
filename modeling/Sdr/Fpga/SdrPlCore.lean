import Sdr.Fpga.AdcFrontend
import Sdr.Fpga.DdcCore
import Sdr.Fpga.IqPacketizer

/-!
# SdrPlCore — the signal path from the ADC to the packet stream

Model of `fpga/rtl/top/sdr_pl_core.v`: the wiring of the ADC front end, the down-converter and the
packetizer, and the block that collects over-range and overflow events for the packet flags.  All
blocks share one clock, so one `step` is one edge of all of them.
-/

namespace Sdr
namespace Fpga
namespace SdrPlCore

open Lib

structure State where
  dc : DcOffsetRemove.State
  levels : AdcLevelMonitor.State 16
  adcTimestamp : BitVec 64
  ddc : DdcCore.State
  iq : IqPacketizer.State
  adcOrSeen : Bool
  iqOverflowSeen : Bool
  ddc0OverflowCountD : BitVec 32
  iqPacketCountD : BitVec 32

structure Inputs where
  rst : Bool
  coreEnable : Bool
  clearStatusCounts : Bool
  adcOffsetBinary : Bool
  adcCh0Sample14 : BitVec 14
  adcCh1Sample14 : BitVec 14
  adcSampleValid : Bool
  adcOr : Bool
  adcLocked : Bool
  ddc0Enable : Bool
  ddc0AdcChannel : Bool
  ddc0ConfigChanged : Bool
  ddc0FreqWord : BitVec 32
  ddc0DecimRate : BitVec 16
  ddc0GainShift : BitVec 6
  ddc0FrequencyHz : BitVec 64
  ddc0IqSampleRateHz : BitVec 32
  ddc0BandwidthHz : BitVec 32
  ddc0GainDbQ8 : BitVec 16
  mAxisIqTready : Bool
  deriving DecidableEq

def resetState : State where
  dc := DcOffsetRemove.resetState
  levels := AdcLevelMonitor.resetState 16
  adcTimestamp := 0
  ddc := DdcCore.resetState
  iq := IqPacketizer.resetState
  adcOrSeen := false
  iqOverflowSeen := false
  ddc0OverflowCountD := 0
  iqPacketCountD := 0

/-! ## Wiring -/

def adcSigned (i : Inputs) : BitVec 16 :=
  adcFormatConvert (if i.ddc0AdcChannel then i.adcCh1Sample14 else i.adcCh0Sample14)
    i.adcOffsetBinary

def adcActiveValid (i : Inputs) : Bool :=
  i.adcSampleValid && i.coreEnable && i.adcLocked

/-- The `enable` of the down-converter and of the packetizer. -/
def enable (i : Inputs) : Bool :=
  i.coreEnable && i.ddc0Enable

def packetFlags (s : State) : BitVec 16 :=
  0#14 ++ BitVec.ofBool s.iqOverflowSeen ++ BitVec.ofBool s.adcOrSeen

def packetizerParams : IqPacketizer.Params where
  streamId := 0
  frameSamples := 256

def packetizerInputs (s : State) (i : Inputs) : IqPacketizer.Inputs where
  rst := i.rst
  enable := enable i
  configChanged := i.ddc0ConfigChanged
  sAxisTdata := s.ddc.mAxisTdata
  sAxisTvalid := s.ddc.mAxisTvalid
  adcTimestampSeed := s.adcTimestamp
  frequencyHz := i.ddc0FrequencyHz
  iqSampleRateHz := i.ddc0IqSampleRateHz
  bandwidthHz := i.ddc0BandwidthHz
  flags := packetFlags s
  gainDbQ8 := i.ddc0GainDbQ8
  decimation := i.ddc0DecimRate.setWidth 32
  mAxisTready := i.mAxisIqTready

def ddcInputs (s : State) (i : Inputs) : DdcCore.Inputs where
  rst := i.rst
  enable := enable i
  sampleIn := s.dc.sampleOut
  sampleValid := s.dc.sampleValidOut
  freqWord := i.ddc0FreqWord
  decimRate := i.ddc0DecimRate
  gainShift := i.ddc0GainShift
  mAxisTready := IqPacketizer.sAxisTready s.iq (packetizerInputs s i)

def levelInputs (s : State) (i : Inputs) : AdcLevelMonitor.Inputs where
  rst := i.rst
  clearCounts := i.clearStatusCounts
  sampleIn := adcSigned i
  sampleValid := adcActiveValid i
  adcOr := i.adcOr
  extraClip := DdcCore.iqClip s.ddc

/-! ## The event flags -/

/-- `ddc0_overflow_count != ddc0_overflow_count_d`. -/
def overflowed (s : State) : Bool :=
  s.ddc.overflowCount != s.ddc0OverflowCountD

/-- `iq_packet_count != iq_packet_count_d`: a packet was closed at the last edge. -/
def packetClosed (s : State) : Bool :=
  s.iq.packetCount != s.iqPacketCountD

/-- A flag that collects an event until a packet closes. -/
def sticky (seen event closed : Bool) : Bool :=
  if closed then event else if event then true else seen

def step (s : State) (i : Inputs) : State where
  dc := DcOffsetRemove.step s.dc i.rst true (adcSigned i) (adcActiveValid i)
  levels := AdcLevelMonitor.step s.levels (levelInputs s i)
  adcTimestamp := timestampCounter s.adcTimestamp i.rst (adcActiveValid i)
  ddc := DdcCore.step s.ddc (ddcInputs s i)
  iq := IqPacketizer.step packetizerParams s.iq (packetizerInputs s i)
  adcOrSeen := if i.rst then false else sticky s.adcOrSeen i.adcOr (packetClosed s)
  iqOverflowSeen := if i.rst then false else sticky s.iqOverflowSeen (overflowed s) (packetClosed s)
  ddc0OverflowCountD := if i.rst then 0 else s.ddc.overflowCount
  iqPacketCountD := if i.rst then 0 else s.iq.packetCount

/-! ## Runs -/

/-- The state after the edges `is` out of reset. -/
def run (is : List Inputs) : State :=
  runFrom step resetState is

/-- The stream is enabled and goes on undisturbed. -/
def Streaming (i : Inputs) : Prop :=
  i.rst = false ∧ enable i = true ∧ i.ddc0ConfigChanged = false

instance (i : Inputs) : Decidable (Streaming i) :=
  inferInstanceAs (Decidable (_ ∧ _ ∧ _))

/-- The edge has the configuration of `c`: they differ in the ADC, the status clear and the sink only. -/
def SameConfig (c i : Inputs) : Prop :=
  i =
    { c with
      clearStatusCounts := i.clearStatusCounts
      adcCh0Sample14 := i.adcCh0Sample14
      adcCh1Sample14 := i.adcCh1Sample14
      adcSampleValid := i.adcSampleValid
      adcOr := i.adcOr
      adcLocked := i.adcLocked
      mAxisIqTready := i.mAxisIqTready }

instance (c i : Inputs) : Decidable (SameConfig c i) :=
  inferInstanceAs (Decidable (i = _))

end SdrPlCore
end Fpga
end Sdr
