import Sdr.Lib.PyValue
import Sdr.Protocol.Packets
import Mathlib.Data.Int.Bitwise

/-!
# StreamState — the IQ streams of the fake device

Model of `StreamState` and `_send_iq_packet` of `simulator/fake_ac920/server.py`.  The oscillator
only makes the payload, which no header field depends on except its length, four bytes a sample.
-/

namespace Sdr
namespace Simulator

open Lib Protocol

/-- The part of `FakeAc920Config` that IQ packets depend on. -/
structure IqConfig where
  sampleCount : Int := 256
  injectAdcOr : Bool := false
  injectFifoOverflow : Bool := false
  deriving DecidableEq, Repr

structure StreamState where
  streamId : Int
  adcChannel : Int := 0
  frequencyHz : Int := 98500000
  mode : PyStr := py "WFM"
  iqSampleRateHz : Int := 1000000
  bandwidthHz : Int := 250000
  enabled : Bool := false
  seq : Int := 0
  adcTimestamp : Int := 0
  firstPacket : Bool := true
  fifoOverflowCount : Nat := 0
  deriving DecidableEq, Repr

namespace StreamState

/-- Floor division, as Python has it; at a rate of zero the code raises. -/
def decimation (stream : StreamState) : Int :=
  Int.fdiv 250000000 stream.iqSampleRateHz

def resetForEnable (stream : StreamState) : StreamState :=
  { stream with seq := 0, adcTimestamp := 0, firstPacket := true }

/-- The flags of the next packet. -/
def packetFlags (config : IqConfig) (stream : StreamState) : Int :=
  let flags :=
    if stream.firstPacket then Int.lor SDR_IQ_FLAG_DISCONTINUITY SDR_IQ_FLAG_CONFIG_CHANGED else 0
  let flags := if config.injectAdcOr then Int.lor flags SDR_IQ_FLAG_ADC_OR else flags
  if config.injectFifoOverflow then Int.lor flags SDR_IQ_FLAG_FIFO_OVERFLOW else flags

def iqHeader (config : IqConfig) (stream : StreamState) : SdrIqHeader where
  streamId := stream.streamId
  seq := stream.seq
  adcTimestamp := stream.adcTimestamp
  frequencyHz := stream.frequencyHz
  iqSampleRateHz := stream.iqSampleRateHz
  bandwidthHz := stream.bandwidthHz
  sampleCount := config.sampleCount
  flags := packetFlags config stream
  decimation := stream.decimation
  payloadBytes := 4 * config.sampleCount

/-- `_send_iq_packet`: the header that is sent, and the stream after it. -/
def sendIqPacket (config : IqConfig) (stream : StreamState) : SdrIqHeader × StreamState :=
  let header := iqHeader config stream
  (header,
    { stream with
      firstPacket := false
      fifoOverflowCount :=
        if config.injectFifoOverflow then stream.fifoOverflowCount + 1
        else stream.fifoOverflowCount
      -- The packet just built has the old numbers; its length moves the timestamp.
      seq := (stream.seq + 1) % 2 ^ 32
      adcTimestamp := (stream.adcTimestamp + header.nextTimestampDelta) % 2 ^ 64 })

end StreamState

end Simulator
end Sdr
