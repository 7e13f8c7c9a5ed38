import Sdr.Lib.Machine
import Mathlib.Data.BitVec

/-!
# IqPacketizer — framing IQ words into packets

Model of `fpga/rtl/stream/iq_packetizer.v`: one clock, three states, and an output register with
back-pressure.  `step` is the `always @(posedge clk)` block.  Its non-blocking assignments all read
the registers from before the edge; of two assignments to one register the later one wins, which is
why the drain of the output register is applied first.
-/

namespace Sdr
namespace Fpga
namespace IqPacketizer

open Lib

/-! ## Parameters, registers and ports -/

structure Params where
  streamId : BitVec 16
  frameSamples : BitVec 16

/-- `state` is two bits wide; `other` is the encoding no branch assigns. -/
inductive Phase
  | idle
  | header
  | payload
  | other
  deriving DecidableEq, Repr

structure State where
  state : Phase
  headerIndex : BitVec 5
  payloadCount : BitVec 16
  packetTimestamp : BitVec 64
  nextPacketTimestamp : BitVec 64
  frequencyLatched : BitVec 64
  rateLatched : BitVec 32
  bandwidthLatched : BitVec 32
  decimationLatched : BitVec 32
  flagsLatched : BitVec 16
  gainLatched : BitVec 16
  firstPacket : Bool
  packetSeq : BitVec 32
  packetCount : BitVec 32
  mAxisTdata : BitVec 32
  mAxisTkeep : BitVec 4
  mAxisTvalid : Bool
  mAxisTlast : Bool
  deriving DecidableEq

structure Inputs where
  rst : Bool
  enable : Bool
  configChanged : Bool
  sAxisTdata : BitVec 32
  sAxisTvalid : Bool
  adcTimestampSeed : BitVec 64
  frequencyHz : BitVec 64
  iqSampleRateHz : BitVec 32
  bandwidthHz : BitVec 32
  flags : BitVec 16
  gainDbQ8 : BitVec 16
  decimation : BitVec 32
  mAxisTready : Bool

def SDR_IQ_MAGIC : BitVec 32 := 0x51494453

def VERSION : BitVec 16 := 1

def HEADER_LEN : BitVec 16 := 64

def FRAME_TYPE_IQ : BitVec 16 := 1

def SAMPLE_FORMAT_SC16 : BitVec 16 := 1

def FLAG_DISCONTINUITY : BitVec 16 := 0x0004

def FLAG_CONFIG_CHANGED : BitVec 16 := 0x0008

/-! ## Continuous assignments -/

def outReady (s : State) (i : Inputs) : Bool :=
  !s.mAxisTvalid || i.mAxisTready

def sAxisTready (s : State) (i : Inputs) : Bool :=
  (s.state == .payload) && outReady s i

def payloadBytes (p : Params) : BitVec 32 :=
  (0#14) ++ p.frameSamples ++ (0#2)

/-- The product is taken in the 64 bits of `timestamp_step`. -/
def timestampStep (p : Params) (s : State) : BitVec 64 :=
  s.decimationLatched.setWidth 64 * p.frameSamples.setWidth 64

def packetFlags (s : State) : BitVec 16 :=
  s.flagsLatched ||| (if s.firstPacket then FLAG_DISCONTINUITY ||| FLAG_CONFIG_CHANGED else 0)

/-- The word the header state puts out at an index. -/
def headerWord (p : Params) (s : State) (index : Nat) : BitVec 32 :=
  match index with
  -- Within a word the first field on the wire is the low half.
  | 0 => SDR_IQ_MAGIC
  | 1 => HEADER_LEN ++ VERSION
  | 2 => p.streamId ++ FRAME_TYPE_IQ
  | 3 => s.packetSeq
  | 4 => s.packetTimestamp.extractLsb' 0 32
  | 5 => s.packetTimestamp.extractLsb' 32 32
  | 6 => s.frequencyLatched.extractLsb' 0 32
  | 7 => s.frequencyLatched.extractLsb' 32 32
  | 8 => s.rateLatched
  | 9 => s.bandwidthLatched
  | 10 => p.frameSamples ++ SAMPLE_FORMAT_SC16
  | 11 => s.gainLatched ++ packetFlags s
  | 12 => s.decimationLatched
  | 13 => payloadBytes p
  | 14 => 0
  | _ => 0

/-! ## The clocked block -/

def resetState : State where
  state := .idle
  headerIndex := 0
  payloadCount := 0
  packetTimestamp := 0
  nextPacketTimestamp := 0
  frequencyLatched := 0
  rateLatched := 0
  bandwidthLatched := 0
  decimationLatched := 1
  flagsLatched := 0
  gainLatched := 0
  firstPacket := true
  packetSeq := 0
  packetCount := 0
  mAxisTdata := 0
  mAxisTkeep := 0xf
  mAxisTvalid := false
  mAxisTlast := false

/-- The output register after its word has been accepted, or as it was. -/
def drain (s : State) (i : Inputs) : State :=
  if s.mAxisTvalid && i.mAxisTready then
    { s with mAxisTvalid := false, mAxisTlast := false }
  else
    s

/-- `!enable`. -/
def disable (s : State) : State :=
  { s with state := .idle, headerIndex := 0, payloadCount := 0, firstPacket := true }

/-- `config_changed`. -/
def reconfigure (s : State) (i : Inputs) : State :=
  { s with
    state := .idle
    headerIndex := 0
    payloadCount := 0
    packetSeq := 0
    packetTimestamp := i.adcTimestampSeed
    nextPacketTimestamp := i.adcTimestampSeed
    firstPacket := true }

/-- `ST_IDLE`: latch what the next packet's header will carry. -/
def startPacket (s : State) (i : Inputs) : State :=
  { s with
    packetTimestamp := s.nextPacketTimestamp
    frequencyLatched := i.frequencyHz
    rateLatched := i.iqSampleRateHz
    bandwidthLatched := i.bandwidthHz
    decimationLatched := if i.decimation = 0 then 1 else i.decimation
    flagsLatched := i.flags
    gainLatched := i.gainDbQ8
    headerIndex := 0
    payloadCount := 0
    state := .header }

/-- `ST_HEADER`: put out one header word. -/
def putHeader (p : Params) (s : State) : State :=
  { s with
    mAxisTvalid := true
    mAxisTkeep := 0xf
    mAxisTlast := false
    mAxisTdata := headerWord p s s.headerIndex.toNat
    headerIndex := if s.headerIndex = 15 then 0 else s.headerIndex + 1
    state := if s.headerIndex = 15 then .payload else .header }

/-- `ST_PAYLOAD` with a valid input word: pass it on, and close the packet after the last one. -/
def putPayload (p : Params) (s : State) (i : Inputs) : State :=
  if s.payloadCount = p.frameSamples - 1 then
    { s with
      mAxisTdata := i.sAxisTdata
      mAxisTkeep := 0xf
      mAxisTvalid := true
      mAxisTlast := true
      payloadCount := 0
      state := .idle
      packetSeq := s.packetSeq + 1
      packetCount := s.packetCount + 1
      nextPacketTimestamp := s.packetTimestamp + timestampStep p s
      firstPacket := false }
  else
    -- `m_axis_tlast` is not assigned on this branch.
    { s with
      mAxisTdata := i.sAxisTdata
      mAxisTkeep := 0xf
      mAxisTvalid := true
      payloadCount := s.payloadCount + 1 }

/-- `case (state)`, entered when the output register is free or being read. -/
def advance (p : Params) (s : State) (i : Inputs) : State :=
  match s.state with
  | .idle => startPacket s i
  | .header => putHeader p s
  | .payload => if i.sAxisTvalid then putPayload p s i else s
  -- `default` of the `case`: the fourth encoding of the two state bits.
  | .other => { s with state := .idle }

def step (p : Params) (s : State) (i : Inputs) : State :=
  if i.rst then
    resetState
  -- Both exits leave an accepted word drained and the current packet unfinished.
  else if !i.enable then
    disable (drain s i)
  else if i.configChanged then
    reconfigure (drain s i) i
  else if outReady s i then
    advance p (drain s i) i
  else
    drain s i

/-! ## Transfers -/

/-- A word on the output stream. -/
structure Word where
  data : BitVec 32
  keep : BitVec 4
  last : Bool
  deriving DecidableEq, Repr

/-- The word waiting in the output register. -/
def pending (s : State) : List Word :=
  if s.mAxisTvalid then
    [{ data := s.mAxisTdata, keep := s.mAxisTkeep, last := s.mAxisTlast }]
  else
    []

/-- The word accepted at an edge: `m_axis_tvalid && m_axis_tready`. -/
def accepted (s : State) (i : Inputs) : List Word :=
  if i.mAxisTready then pending s else []

/-- The input word taken at an edge: `s_axis_tvalid && s_axis_tready`. -/
def taken (s : State) (i : Inputs) : List (BitVec 32) :=
  if i.sAxisTvalid && sAxisTready s i then [i.sAxisTdata] else []

/-- No reset, enabled, and no change of configuration. -/
def Streaming (i : Inputs) : Prop :=
  i.rst = false ∧ i.enable = true ∧ i.configChanged = false

instance (i : Inputs) : Decidable (Streaming i) :=
  inferInstanceAs (Decidable (i.rst = false ∧ i.enable = true ∧ i.configChanged = false))

/-- The inputs a packet latches, at the edge that starts it. -/
def started (s : State) (i : Inputs) : List Inputs :=
  if Streaming i ∧ outReady s i = true ∧ s.state = .idle then [i] else []

end IqPacketizer
end Fpga
end Sdr
