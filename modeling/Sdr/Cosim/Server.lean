import Sdr.Fpga.SdrPlCore
import Sdr.Lib.CString
import Sdr.Lib.Struct

/-!
# Server — the device around the simulated signal path

Model of `fpga/sim/verilator/sdr_cosim_server.cpp`: a control server for one client, wrapped around the
compiled `sdr_pl_core`.  The class is modelled in two layers.  `Radio` is what `step_rtl` touches: the
ports and the registers of the core, the words of the packet that is being collected, and where packets
are sent.  `CosimServer` is the rest, the control connection and the timers.

What the program does not decide itself is the parameter `Host`: the two results of floating-point
arithmetic that reach a register or a packet, `inet_aton`, and the readings of the clock.  The third, the
tone at the converter, is an input of every edge.
-/

namespace Sdr
namespace Cosim

open Lib Lib.CString Lib.Struct Fpga

/-! ## Constants -/

def kPsdMagic : BitVec 32 := 0x53504453

def kProtocolVersion : BitVec 16 := 1

def kFramePsd : BitVec 16 := 2

def kPsdI16DbfsQ8 : BitVec 16 := 1

def kPsdFlagConfigChanged : BitVec 16 := 2

/-- `inet_ntoa` and `inet_aton` addresses, and a port. -/
structure Endpoint where
  valid : Bool := false
  address : BitVec 32 := 0
  port : BitVec 16 := 0
  deriving DecidableEq

/-- What the program asks its surroundings for. -/
structure Host where
  freqWordForHz : BitVec 64 → BitVec 32
  /-- `lrint(db * 256.0)` for the start frequency, the span and the bin. -/
  level : BitVec 32 → BitVec 64 → Nat → BitVec 16
  inetAton : CString → Option (BitVec 32)
  /-- The reading with this number. -/
  nowMs : Nat → BitVec 64

/-! ## Looking a field up -/

/-- The text behind the colon that follows the first place where the key stands in quotes. -/
def behindColon (line : CString) (key : String) : Option CString :=
  (strstr (quoted key.toList) line).bind fun p =>
    (strchr ':' (p.drop (quoted key.toList).length)).map (List.drop 1)

/-- The characters of `find_first_of("-0123456789", ...)`. -/
def startsNumber (c : Char) : Bool :=
  c == '-' || c.isDigit

def jsonInt (line : CString) (key : String) (fallback : Int) : Int :=
  match behindColon line key with
  | none => fallback
  -- Whatever stands before the next digit is passed over, even a comma.
  | some p => (strtoll (p.dropWhile (fun c => !startsNumber c))).getD fallback

/-- The characters of `find_first_not_of(" \t\r\n", ...)`. -/
def isBlank (c : Char) : Bool :=
  c == ' ' || c == '\t' || c == '\r' || c == '\n'

def jsonBool (line : CString) (key : String) (fallback : Bool) : Bool :=
  match behindColon line key with
  | none => fallback
  | some p =>
      let start := p.dropWhile isBlank
      if "true".toList.isPrefixOf start then true
      else if "false".toList.isPrefixOf start then false
      else fallback

def jsonString (line : CString) (key : String) (fallback : CString) : CString :=
  -- Any quote behind the colon opens the string, even that of a later key.
  match (behindColon line key).bind (strchr '"') with
  | none => fallback
  | some opening =>
      if '"' ∈ opening.drop 1 then (opening.drop 1).takeWhile (· ≠ '"') else fallback

/-! ## Texts -/

def text (s : String) : CString :=
  s.toList

/-- `std::to_string` of an unsigned value. -/
def toText {width : Nat} (v : BitVec width) : CString :=
  decimal v.toNat

def okPrefix (requestId : BitVec 32) : CString :=
  text "\x7b\"request_id\":" ++ decimal requestId.toInt ++ text ",\"ok\":true"

def errorResponse (requestId : BitVec 32) (code message : String) : CString :=
  text "\x7b\"request_id\":" ++ decimal requestId.toInt ++
    text ",\"ok\":false,\"error\":\x7b\"code\":\"" ++ text code ++ text "\",\"message\":\"" ++
    text message ++ text "\"\x7d\x7d\n"

/-- The line a second client is turned away with. -/
def busyLine : CString :=
  text "\x7b\"ok\":false,\"error\":\x7b\"code\":\"busy\"," ++
    text "\"message\":\"device already has an owner\"\x7d\x7d\n"

def boolText (b : Bool) : CString :=
  text (if b then "true" else "false")

/-! ## Little-endian packets -/

def appendU16 (out : List Byte) (value : BitVec 16) : List Byte :=
  out ++ toBytes 2 value.toNat

def appendU32 (out : List Byte) (value : BitVec 32) : List Byte :=
  out ++ toBytes 4 value.toNat

def appendU64 (out : List Byte) (value : BitVec 64) : List Byte :=
  out ++ toBytes 8 value.toNat

/-! ## Configurations -/

structure StreamConfig where
  enabled : Bool := false
  streamId : BitVec 32 := 0
  adcChannel : BitVec 32 := 0
  frequencyHz : BitVec 64 := 98500000
  mode : CString := text "WFM"
  iqSampleRateHz : BitVec 32 := 1000000
  bandwidthHz : BitVec 32 := 250000
  decimation : BitVec 16 := 250

structure PsdConfig where
  enabled : Bool := false
  frameSeq : BitVec 32 := 0
  startFrequencyHz : BitVec 32 := 500000
  stopFrequencyHz : BitVec 32 := 108000000
  fftSize : BitVec 16 := 16384
  outputBins : BitVec 16 := 4096
  fps : BitVec 16 := 10
  firstFrame : Bool := true

def decimationForRate (rate : BitVec 32) : BitVec 16 :=
  if rate = 125000 then 2000
  else if rate = 250000 then 1000
  else if rate = 500000 then 500
  else 250

/-! ## The signal path and its packets -/

structure Radio where
  ports : SdrPlCore.Inputs
  dut : SdrPlCore.State
  configChangedPulses : Nat := 0
  iqPacket : List Byte := []
  iqDest : Endpoint := {}
  iqPacketsSent : BitVec 32 := 0

namespace Radio

/-- The ports that `init` sets before the first edge. -/
def initialPorts : SdrPlCore.Inputs where
  rst := true
  coreEnable := false
  clearStatusCounts := false
  adcOffsetBinary := false
  adcCh0Sample14 := 0
  adcCh1Sample14 := 0
  adcSampleValid := false
  adcOr := false
  adcLocked := false
  ddc0Enable := false
  ddc0AdcChannel := false
  ddc0ConfigChanged := false
  ddc0FreqWord := 0
  ddc0DecimRate := 250
  ddc0GainShift := 30
  ddc0FrequencyHz := 98500000
  ddc0IqSampleRateHz := 1000000
  ddc0BandwidthHz := 250000
  ddc0GainDbQ8 := 0
  mAxisIqTready := true

/-- `apply_stream_config`. -/
def applyStreamConfig (host : Host) (r : Radio) (enabled : Bool) (stream : StreamConfig) : Radio :=
  { r with
    ports :=
      { r.ports with
        coreEnable := enabled
        ddc0Enable := enabled
        ddc0AdcChannel := stream.adcChannel.getLsbD 0
        ddc0FreqWord := host.freqWordForHz stream.frequencyHz
        ddc0DecimRate := stream.decimation
        ddc0GainShift := 30
        ddc0FrequencyHz := stream.frequencyHz
        ddc0IqSampleRateHz := stream.iqSampleRateHz
        ddc0BandwidthHz := stream.bandwidthHz
        ddc0GainDbQ8 := 0 }
    configChangedPulses := 3
    iqPacket := [] }

/-- The ports at the next edge. -/
def edgePorts (r : Radio) (sample14 : BitVec 14) : SdrPlCore.Inputs :=
  { r.ports with
    ddc0ConfigChanged := decide (0 < r.configChangedPulses)
    adcCh0Sample14 := sample14
    adcCh1Sample14 := sample14
    adcSampleValid := true
    adcLocked := true
    mAxisIqTready := true }

/-- One rising edge of the clock. -/
def clock (r : Radio) (sample14 : BitVec 14) : Radio :=
  { r with
    ports := r.edgePorts sample14
    dut := SdrPlCore.step r.dut (r.edgePorts sample14)
    configChangedPulses := r.configChangedPulses - 1 }

/-- `m_axis_iq_tvalid && m_axis_iq_tready` out of reset, looked at once the edge is over. -/
def hasWord (r : Radio) : Bool :=
  !r.ports.rst && r.dut.iq.mAxisTvalid && r.ports.mAxisIqTready

/-- The packet with the word that is there now. -/
def packetSoFar (r : Radio) : List Byte :=
  appendU32 r.iqPacket r.dut.iq.mAxisTdata

/-- The condition of `sendto`. -/
def sends (r : Radio) : Bool :=
  r.hasWord && r.dut.iq.mAxisTlast && r.iqDest.valid && decide (64 ≤ r.packetSoFar.length)

/-- What `step_rtl` does with the word that is there now. -/
def collect (r : Radio) : Radio :=
  if r.hasWord then
    if r.dut.iq.mAxisTlast then
      -- Without a valid address the packet is forgotten all the same.
      { r with
        iqPacket := []
        iqPacketsSent := if r.sends then r.iqPacketsSent + 1 else r.iqPacketsSent }
    else
      { r with iqPacket := r.packetSoFar }
  else
    r

def stepRtl (r : Radio) (sample14 : BitVec 14) : Radio :=
  (r.clock sample14).collect

/-- The datagram that `step_rtl` sends. -/
def stepRtlSent (r : Radio) (sample14 : BitVec 14) : List (Endpoint × List Byte) :=
  let clocked := r.clock sample14
  if clocked.sends then [(clocked.iqDest, clocked.packetSoFar)] else []

end Radio

/-! ## The server -/

structure CosimServer where
  radio : Radio
  /-- `client_fd_ >= 0`. -/
  clientOpen : Bool := false
  clientIp : CString := text "127.0.0.1"
  rxBuffer : CString := []
  psdDest : Endpoint := {}
  statusDest : Endpoint := {}
  stream : StreamConfig := {}
  psd : PsdConfig := {}
  bootMs : BitVec 64 := 0
  nextStatusMs : BitVec 64 := 0
  nextPsdMs : BitVec 64 := 0
  statusSeq : BitVec 32 := 0
  psdPacketsSent : BitVec 32 := 0
  /-- How often the clock has been read. -/
  clockReads : Nat := 0

/-- What leaves the program. -/
inductive Output
  /-- A line to the client that owns the device. -/
  | reply (line : CString)
  /-- A line to a client that is turned away. -/
  | refusal (line : CString)
  | iq (dest : Endpoint) (data : List Byte)
  | psd (dest : Endpoint) (data : List Byte)
  | status (dest : Endpoint) (payload : CString)

namespace CosimServer

variable (host : Host)

/-- `device_time_ms()`, which reads the clock once. -/
def deviceTimeMs (s : CosimServer) : BitVec 64 :=
  host.nowMs s.clockReads - s.bootMs

def readClock (s : CosimServer) : CosimServer :=
  { s with clockReads := s.clockReads + 1 }

def streamStatusJson (s : CosimServer) : CString :=
  text "\x7b\"stream_id\":0,\"adc_channel\":" ++ decimal s.stream.adcChannel.toInt ++
    text ",\"enabled\":true,\"frequency_hz\":" ++ toText s.stream.frequencyHz ++
    text ",\"mode\":\"" ++ s.stream.mode ++
    text "\",\"iq_sample_rate_hz\":" ++ toText s.stream.iqSampleRateHz ++
    text ",\"bandwidth_hz\":" ++ toText s.stream.bandwidthHz ++
    text ",\"sample_format\":\"SC16_LE\",\"seq\":0,\"fifo_overflow_count\":" ++
    toText s.radio.dut.ddc.overflowCount ++ text "\x7d"

/-- `status_json()`; it reads the clock once. -/
def statusJson (s : CosimServer) : CString :=
  text "\x7b\"type\":\"status\",\"protocol_version\":1,\"seq\":" ++ toText s.statusSeq ++
    text ",\"device_time_ms\":" ++ toText (s.deviceTimeMs host) ++
    text ",\"adc_sample_rate_hz\":250000000," ++
    text "\"adc\":\x7b\"channel\":0,\"peak_dbfs\":-12.0," ++
    text "\"rms_dbfs\":-28.0,\"or_count\":0,\"clip_count\":" ++
    toText s.radio.dut.levels.clipCount ++
    text "\x7d,\"frontend\":\x7b\"attenuator_db\":10,\"lna\":\"bypass\"," ++
    text "\"filter\":\"LPF_108M\"\x7d,\"streams\":[" ++
    (if s.stream.enabled then s.streamStatusJson else []) ++
    text "],\"psd\":[\x7b\"psd_id\":0,\"enabled\":" ++ boolText s.psd.enabled ++
    text ",\"source\":\"adc0\",\"start_frequency_hz\":" ++ toText s.psd.startFrequencyHz ++
    text ",\"stop_frequency_hz\":" ++ toText s.psd.stopFrequencyHz ++
    text ",\"fft_size\":" ++ toText s.psd.fftSize ++
    text ",\"output_bins\":" ++ toText s.psd.outputBins ++
    text ",\"fps\":" ++ toText s.psd.fps ++
    text ",\"frame_seq\":" ++ toText s.psd.frameSeq ++
    text ",\"dropped_frame_count\":0,\"missing_segment_count\":0," ++
    text "\"overflow_count\":0\x7d],\"network\":\x7b\"iq_packets_sent\":" ++
    toText s.radio.iqPacketsSent ++
    text ",\"psd_packets_sent\":" ++ toText s.psdPacketsSent ++
    text ",\"status_packets_sent\":" ++ toText s.statusSeq ++
    text ",\"iq_fifo_overflow_count\":" ++ toText s.radio.dut.ddc.overflowCount ++
    text ",\"psd_fifo_overflow_count\":0\x7d\x7d"

/-! ## Requests -/

def makeDest (ip : CString) (port : BitVec 16) : Endpoint :=
  -- `c_str()` ends at the first NUL.
  match host.inetAton (ip.takeWhile (fun c => c ≠ Char.ofNat 0)) with
  | some address => { valid := true, address, port }
  | none => { valid := false, address := 0, port }

def portField (line : CString) (key : String) (fallback : Int) : BitVec 16 :=
  BitVec.ofInt 16 (jsonInt line key fallback)

/-- The limits and names in the answer to `hello`. -/
def helloLimits : CString :=
  text ",\"protocol_version\":1," ++
    text "\"device\":\x7b\"name\":\"verilated-AC920-PL\",\"serial\":\"cosim\"," ++
    text "\"firmware_version\":\"cosim\",\"fpga_build_id\":\"verilator\"\x7d," ++
    text "\"limits\":\x7b\"adc_sample_rate_hz\":250000000," ++
    text "\"min_frequency_hz\":500000,\"max_frequency_hz\":108000000," ++
    text "\"max_iq_streams\":1," ++
    text "\"supported_iq_sample_rates_hz\":[125000,250000,500000,1000000]," ++
    text "\"supported_sample_formats\":[\"SC16_LE\"]," ++
    text "\"supported_psd_sources\":[\"adc0\"]," ++
    text "\"supported_psd_output_bins\":[4096]," ++
    text "\"supported_psd_fps\":[10]," ++
    text "\"supported_psd_sample_formats\":[\"I16_DBFS_Q8\"]," ++
    text "\"max_psd_segments_per_frame\":8," ++
    text "\"max_psd_bins_per_segment\":512," ++
    text "\"min_psd_span_hz\":100000," ++
    text "\"max_psd_span_hz\":107500000," ++
    text "\"max_udp_payload_bytes\":1200\x7d\x7d\n"

def handleHello (s : CosimServer) (line : CString) (requestId : BitVec 32) : CosimServer × CString :=
  -- Without a destination the datagrams go where the connection comes from.
  let destIp := jsonString line "destination_ip" s.clientIp
  ({ s with
      radio := { s.radio with iqDest := makeDest host destIp (portField line "iq_port" 9001) }
      psdDest := makeDest host destIp (portField line "psd_port" 9002)
      statusDest := makeDest host destIp (portField line "status_port" 9003) },
    okPrefix requestId ++ helloLimits)

/-- The server with this stream configuration, applied. -/
def applied (s : CosimServer) (enabled : Bool) (stream : StreamConfig) : CosimServer :=
  { s with stream, radio := s.radio.applyStreamConfig host enabled stream }

/-- The stream configuration that an enabling `set_rx` asks for. -/
def requestedStream (line : CString) : StreamConfig where
  enabled := true
  streamId := BitVec.ofInt 32 (jsonInt line "stream_id" 0)
  adcChannel := BitVec.ofInt 32 (jsonInt line "adc_channel" 0)
  frequencyHz := BitVec.ofInt 64 (jsonInt line "frequency_hz" 98500000)
  mode := jsonString line "mode" (text "WFM")
  iqSampleRateHz := BitVec.ofInt 32 (jsonInt line "iq_sample_rate_hz" 1000000)
  bandwidthHz := BitVec.ofInt 32 (jsonInt line "bandwidth_hz" 250000)
  decimation := decimationForRate (BitVec.ofInt 32 (jsonInt line "iq_sample_rate_hz" 1000000))

def handleSetRx (s : CosimServer) (line : CString) (requestId : BitVec 32) : CosimServer × CString :=
  if jsonBool line "enable" s.stream.enabled then
    let stream := requestedStream line
    (s.applied host true stream,
      okPrefix requestId ++ text ",\"applied\":\x7b\"stream_id\":0,\"adc_channel\":" ++
        decimal stream.adcChannel.toInt ++
        text ",\"frequency_hz\":" ++ toText stream.frequencyHz ++
        text ",\"mode\":\"" ++ stream.mode ++
        text "\",\"iq_sample_rate_hz\":" ++ toText stream.iqSampleRateHz ++
        text ",\"bandwidth_hz\":" ++ toText stream.bandwidthHz ++
        text ",\"sample_format\":\"SC16_LE\",\"decimation\":" ++ toText stream.decimation ++
        text ",\"enable\":true\x7d\x7d\n")
  else
    -- The tuning stays, and is applied once more.
    (s.applied host false { s.stream with enabled := false },
      okPrefix requestId ++ text ",\"applied\":\x7b\"stream_id\":0,\"enable\":false\x7d\x7d\n")

def requestedPsd (psd : PsdConfig) (line : CString) : PsdConfig :=
  { psd with
    enabled := jsonBool line "enable" true
    startFrequencyHz :=
      BitVec.ofInt 32 (jsonInt line "start_frequency_hz" psd.startFrequencyHz.toNat)
    stopFrequencyHz :=
      BitVec.ofInt 32 (jsonInt line "stop_frequency_hz" psd.stopFrequencyHz.toNat)
    fftSize := BitVec.ofInt 16 (jsonInt line "fft_size" 16384)
    outputBins := BitVec.ofInt 16 (jsonInt line "output_bins" 4096)
    fps := BitVec.ofInt 16 (jsonInt line "fps" 10)
    firstFrame := true }

def handleSetPsd (s : CosimServer) (line : CString) (requestId : BitVec 32) : CosimServer × CString :=
  let psd := requestedPsd s.psd line
  ({ s with psd },
    okPrefix requestId ++ text ",\"applied\":\x7b\"psd_id\":0,\"source\":\"adc0\",\"enable\":" ++
      boolText psd.enabled ++ text ",\"enabled\":" ++ boolText psd.enabled ++
      text ",\"start_frequency_hz\":" ++ toText psd.startFrequencyHz ++
      text ",\"stop_frequency_hz\":" ++ toText psd.stopFrequencyHz ++
      text ",\"fft_size\":" ++ toText psd.fftSize ++
      text ",\"output_bins\":" ++ toText psd.outputBins ++
      text ",\"fps\":" ++ toText psd.fps ++
      text ",\"sample_format\":\"I16_DBFS_Q8\"\x7d\x7d\n")

/-- What `handle_request` finds in the line. -/
inductive Command
  | missing
  | hello
  | ping
  | getStatus
  | setFrontend
  | setRx
  | setPsd
  | stopAll
  | unknown
  deriving DecidableEq

def requestIdOf (line : CString) : BitVec 32 :=
  BitVec.ofInt 32 (jsonInt line "request_id" 0)

def commandOf (line : CString) : Command :=
  -- A request without a number and one with the number 0 look the same.
  let cmd := jsonString line "cmd" []
  if requestIdOf line = 0 ∨ cmd = [] then .missing
  else if cmd = text "hello" then .hello
  else if cmd = text "ping" then .ping
  else if cmd = text "get_status" then .getStatus
  else if cmd = text "set_frontend" then .setFrontend
  else if cmd = text "set_rx" then .setRx
  else if cmd = text "set_psd" then .setPsd
  else if cmd = text "stop_all" then .stopAll
  else .unknown

/-- `handle_request`: the server afterwards, and the line that `send_line` is called with. -/
def handleRequest (s : CosimServer) (line : CString) : CosimServer × CString :=
  let requestId := requestIdOf line
  match commandOf line with
  | .missing =>
      (s, errorResponse requestId "invalid_field" "request_id and cmd are required")
  | .hello => s.handleHello host line requestId
  | .ping =>
      (s.readClock,
        okPrefix requestId ++ text ",\"client_time_ms\":" ++
          decimal (jsonInt line "client_time_ms" 0) ++
          text ",\"device_time_ms\":" ++ toText (s.deviceTimeMs host) ++ text "\x7d\n")
  | .getStatus =>
      (s.readClock, okPrefix requestId ++ text ",\"status\":" ++ s.statusJson host ++ text "\x7d\n")
  | .setFrontend =>
      (s,
        okPrefix requestId ++
          text ",\"applied\":\x7b\"attenuator_db\":10,\"lna\":\"bypass\"," ++
          text "\"filter\":\"LPF_108M\"\x7d\x7d\n")
  | .setRx => s.handleSetRx host line requestId
  | .setPsd => s.handleSetPsd line requestId
  | .stopAll =>
      (({ s with psd := { s.psd with enabled := false } }).applied host false
          { s.stream with enabled := false },
        okPrefix requestId ++ text "\x7d\n")
  | .unknown => (s, errorResponse requestId "invalid_command" "unknown command")

/-- The complete lines of a buffer and what is left in it; the first argument is the line so far. -/
def splitLines : CString → CString → List CString × CString
  | line, [] => ([], line)
  | line, c :: rest =>
      if c = '\n' then (line :: (splitLines [] rest).1, (splitLines [] rest).2)
      else splitLines (line ++ [c]) rest

/-- One turn of the loop in `process_lines`. -/
def handleLine (s : CosimServer) (line : CString) : CosimServer :=
  (s.handleRequest host line).1

def lineReply (s : CosimServer) (line : CString) : List Output :=
  [.reply (s.handleRequest host line).2]

/-- The lines that the next bytes complete. -/
def newLines (s : CosimServer) (bytes : List Byte) : List CString :=
  (splitLines [] (s.rxBuffer ++ CString.ofBytes bytes)).1

/-- The server with the incomplete line in its buffer. -/
def buffered (s : CosimServer) (bytes : List Byte) : CosimServer :=
  { s with rxBuffer := (splitLines [] (s.rxBuffer ++ CString.ofBytes bytes)).2 }

/-- `close_control`. -/
def closeControl (s : CosimServer) : CosimServer :=
  ({ s with
      clientOpen := false
      -- The unfinished line goes with the connection.
      rxBuffer := []
      psd := { s.psd with enabled := false }
      -- The endpoints keep their addresses; none of them is valid any more.
      radio := { s.radio with iqDest := { s.radio.iqDest with valid := false } }
      psdDest := { s.psdDest with valid := false }
      statusDest := { s.statusDest with valid := false } }).applied host false
    { s.stream with enabled := false }

/-! ## Timers -/

/-- The PSD datagram of a segment; `deviceTimeMs` is the device's clock when it is made. -/
def psdPacket (psd : PsdConfig) (flags : BitVec 16) (deviceTimeMs : BitVec 64) (seg : Nat) :
    List Byte :=
  let totalBins : BitVec 16 := 4096
  let binsPerSegment : BitVec 16 := 512
  -- The difference is taken in 32 bits.
  let span : BitVec 64 := (psd.stopFrequencyHz - psd.startFrequencyHz).setWidth 64
  let packet := appendU32 [] kPsdMagic
  let packet := appendU16 packet kProtocolVersion
  let packet := appendU16 packet 72
  let packet := appendU16 packet kFramePsd
  let packet := appendU16 packet 0
  let packet := appendU32 packet psd.frameSeq
  let packet := appendU64 packet (deviceTimeMs * 250000)
  let packet := appendU64 packet (psd.startFrequencyHz.setWidth 64)
  let packet := appendU64 packet (span * 1000 / 4096)
  let packet := appendU32 packet (psd.fftSize.setWidth 32)
  let packet := appendU16 packet totalBins
  let packet := appendU16 packet (BitVec.ofNat 16 seg)
  let packet := appendU16 packet 8
  let packet := appendU16 packet (BitVec.ofNat 16 (seg * 512))
  let packet := appendU16 packet binsPerSegment
  let packet := appendU16 packet kPsdI16DbfsQ8
  let packet := appendU16 packet flags
  let packet := appendU16 packet 4
  let packet := appendU32 packet (binsPerSegment.setWidth 32 * 2)
  let packet := appendU64 packet (psd.stopFrequencyHz.setWidth 64)
  (List.range 512).foldl
    (fun packet i => appendU16 packet (host.level psd.startFrequencyHz span (seg * 512 + i))) packet

def psdFlags (psd : PsdConfig) : BitVec 16 :=
  if psd.firstFrame then kPsdFlagConfigChanged else 0

/-- The datagrams of `send_psd_frame`; the clock is read for each of them. -/
def psdFrame (s : CosimServer) : List (List Byte) :=
  (List.range 8).map fun seg =>
    psdPacket host s.psd (psdFlags s.psd) (host.nowMs (s.clockReads + seg) - s.bootMs) seg

/-- The server once `send_psd_frame` is through. -/
def afterPsdFrame (s : CosimServer) : CosimServer :=
  { s with
    -- `set_psd` sets `first_frame` again, and never the number.
    psd := { s.psd with firstFrame := false, frameSeq := s.psd.frameSeq + 1 }
    psdPacketsSent := s.psdPacketsSent + 8
    clockReads := s.clockReads + 8 }

/-- The server with the number of the status packet it is about to send. -/
def countStatus (s : CosimServer) : CosimServer :=
  { s with statusSeq := s.statusSeq + 1 }

def statusDue (s : CosimServer) (now : BitVec 64) : Bool :=
  s.statusDest.valid && decide (s.nextStatusMs ≤ now)

def psdDue (s : CosimServer) (now : BitVec 64) : Bool :=
  s.psdDest.valid && s.psd.enabled && decide (s.nextPsdMs ≤ now)

/-- The first timer of `run`. -/
def statusTimer (s : CosimServer) (now : BitVec 64) : CosimServer :=
  if s.statusDue now then
    { s.countStatus.readClock with
      nextStatusMs := now + (if s.stream.enabled || s.psd.enabled then 250 else 1000) }
  else
    s

def statusTimerSent (s : CosimServer) (now : BitVec 64) : List Output :=
  if s.statusDue now then [.status s.statusDest (s.countStatus.statusJson host)] else []

/-- The second timer of `run`. -/
def psdTimer (s : CosimServer) (now : BitVec 64) : CosimServer :=
  if s.psdDue now then
    -- A rate of 0 counts as 1.
    { s.afterPsdFrame with nextPsdMs := now + BitVec.ofNat 64 (1000 / max s.psd.fps.toNat 1) }
  else
    s

def psdTimerSent (s : CosimServer) (now : BitVec 64) : List Output :=
  if s.psdDue now then (s.psdFrame host).map (Output.psd s.psdDest) else []

/-! ## Events -/

/-- What happens to the program; `run` polls the network, clocks the core and looks at its timers in
turns, and an order of events is one order of these. -/
inductive Event
  /-- A connection is waiting, from this address. -/
  | connect (ip : CString)
  /-- `recv` returns these bytes. -/
  | recv (bytes : List Byte)
  /-- `recv` returns 0 or an error. -/
  | hangup
  | rtl (sample14 : BitVec 14)
  | timers

def step (s : CosimServer) : Event → CosimServer
  | .connect ip =>
      if s.clientOpen then s else { s with clientOpen := true, clientIp := ip, rxBuffer := [] }
  | .recv bytes =>
      -- The bytes may complete several lines, which are handled one after the other.
      if s.clientOpen then runFrom (handleLine host) (s.buffered bytes) (s.newLines bytes) else s
  | .hangup => if s.clientOpen then s.closeControl host else s
  | .rtl sample14 => { s with radio := s.radio.stepRtl sample14 }
  | .timers =>
      let now := host.nowMs s.clockReads
      (s.readClock.statusTimer now).psdTimer now

def outputs (s : CosimServer) : Event → List Output
  | .connect _ => if s.clientOpen then [.refusal busyLine] else []
  | .recv bytes =>
      if s.clientOpen then emits (handleLine host) (lineReply host) (s.buffered bytes) (s.newLines bytes)
      else []
  | .hangup => []
  | .rtl sample14 => (s.radio.stepRtlSent sample14).map fun d => .iq d.1 d.2
  | .timers =>
      let now := host.nowMs s.clockReads
      s.readClock.statusTimerSent host now ++
        (s.readClock.statusTimer now).psdTimerSent host now

/-- The radio after the sixteen edges in reset, from whatever the registers hold. -/
def resetRadio (dut : SdrPlCore.State) (sample14 : Nat → BitVec 14) : Radio :=
  runFrom Radio.stepRtl { ports := Radio.initialPorts, dut } ((List.range 16).map sample14)

/-- The server that `init` leaves behind. -/
def init (dut : SdrPlCore.State) (sample14 : Nat → BitVec 14) : CosimServer where
  radio :=
    { resetRadio dut sample14 with ports := { (resetRadio dut sample14).ports with rst := false } }
  bootMs := host.nowMs 0
  nextStatusMs := host.nowMs 0 + 200
  nextPsdMs := host.nowMs 0 + 250
  clockReads := 1

/-- The server after the events `es`. -/
def run (dut : SdrPlCore.State) (sample14 : Nat → BitVec 14) (es : List Event) : CosimServer :=
  runFrom (step host) (init host dut sample14) es

end CosimServer

end Cosim
end Sdr
