import Sdr.Lib.CString
import Sdr.Bridge.SdrRegs

/-!
# SdrControl — the control-line handler of the PS bridge

Model of `ps/baremetal/src/sdr_control.c`.  A command line is scanned for its fields in place, a
command updates `Control` and drives the hardware through the hooks of `sdr_hw.h`.  What the hooks
answer while one line is handled is an input (`Hw`); what the handler asks of them is an output
(`HwOp`), in order, so the register file can be looked at between any two of its writes.
-/

namespace Sdr
namespace Bridge

open Lib
open Lib.CString

/-! ## Data model -/

structure UdpPeer where
  destinationIp : CString
  iqPort : BitVec 16
  psdPort : BitVec 16
  statusPort : BitVec 16
  deriving DecidableEq, Repr

/-- `sdr_rx_config_t`; the two `int` fields hold 32-bit values. -/
structure RxConfig where
  streamId : Int
  adcChannel : Int
  frequencyHz : BitVec 64
  iqSampleRateHz : BitVec 32
  bandwidthHz : BitVec 32
  mode : CString
  enabled : Bool
  decimation : BitVec 32
  deriving DecidableEq, Repr

structure FrontendConfig where
  attenuatorDb : Int
  lna : CString
  filter : CString
  deriving DecidableEq, Repr

structure Control where
  peerIp : CString
  udpPeer : UdpPeer
  rx : RxConfig
  frontend : FrontendConfig
  statusSeq : BitVec 32
  iqPacketsForwarded : BitVec 32
  iqForwardErrors : BitVec 32
  helloSeen : Bool
  psdEnabled : Bool
  deriving DecidableEq, Repr

/-- `sdr_hw_status_t`. -/
structure HwStatus where
  coreId : BitVec 32
  coreVersion : BitVec 32
  control : BitVec 32
  adcStatus : BitVec 32
  adcPeak : BitVec 32
  adcRms : BitVec 32
  orCount : BitVec 32
  clipCount : BitVec 32
  adcTimestamp : BitVec 64
  adcDebugFlags : BitVec 32
  adcDvalidCount : BitVec 32
  adcCfgUpdateCount : BitVec 32
  ddc0Samples : BitVec 32
  ddc0Overflow : BitVec 32
  deriving DecidableEq, Repr

/-- What the hooks answer while one line is handled: whether `sdr_hw_set_udp_peer` and
`sdr_hw_start_iq_dma` return zero, the clock, and the status registers.  No line calls one of them
twice. -/
structure Hw where
  setUdpPeer : Bool
  startIqDma : Bool
  millis : BitVec 64
  status : HwStatus
  deriving DecidableEq, Repr

/-- What the handler asks of the hardware. -/
inductive HwOp
  | setUdpPeer (peer : UdpPeer)
  | writeReg (offset value : BitVec 32)
  | startIqDma
  | stopIqDma
  deriving DecidableEq, Repr

/-! ## Scanning a line -/

/-- `copy_string`: at most `dstSize - 1` characters. -/
def copyString (dstSize : Nat) (src : CString) : CString :=
  src.take (dstSize - 1)

/-- The steps the three `json_find_*` functions share: the text after the key's colon, blanks
skipped.  Every key fits the pattern buffer. -/
def jsonFindValue (line : CString) (key : String) : Option CString :=
  let pattern := '"' :: key.toList ++ ['"']
  ((strstr pattern line).bind fun p => strchr ':' (p.drop pattern.length)).map fun p =>
    (p.drop 1).dropWhile (fun c => c == ' ' || c == '\t')

def jsonFindNumber (line : CString) (key : String) : Option Int :=
  (jsonFindValue line key).bind strtoll

def jsonFindBool (line : CString) (key : String) : Option Bool :=
  (jsonFindValue line key).bind fun p =>
    if "true".toList.isPrefixOf p then some true
    else if "false".toList.isPrefixOf p then some false
    else none

/-- The copying loop of `json_find_string` with `room` characters left in the buffer; it succeeds if
it stops at the closing quote. -/
def scanString : Nat → CString → Option CString
  | _, [] => none
  | 0, c :: _ => if c = '"' then some [] else none
  | room + 1, c :: rest => if c = '"' then some [] else (scanString room rest).map (c :: ·)

def jsonFindString (line : CString) (key : String) (valueSize : Nat) : Option CString :=
  if valueSize = 0 then none
  else
    (jsonFindValue line key).bind fun p =>
      match p with
      | '"' :: rest => scanString (valueSize - 1) rest
      | _ => none

/-- The cast `(int)value`. -/
def toInt32 (value : Int) : Int :=
  (BitVec.ofInt 32 value).toInt

def jsonRequestId (line : CString) : Option Int :=
  (jsonFindNumber line "request_id").map toInt32

/-- `strstr(line, "\"cmd\"")` finds the key. -/
def hasCmd (line : CString) : Bool :=
  (strstr "\"cmd\"".toList line).isSome

def jsonCmdIs (line : CString) (cmd : String) : Bool :=
  jsonFindString line "cmd" 32 == some cmd.toList

/-! ## Responses -/

inductive Response
  | requestIdRequired
  | error (requestId : Int) (code message : String)
  | hello (requestId : Int)
  | ping (requestId clientTimeMs : Int) (deviceTimeMs : BitVec 64)
  | status (requestId : Int) (statusJson : CString)
  | frontend (requestId : Int) (applied : FrontendConfig)
  | rxStopped (requestId : Int)
  | rx (requestId : Int) (applied : RxConfig)
  | psdStopped (requestId : Int)
  | stopped (requestId : Int)
  deriving DecidableEq, Repr

/-- `%u` and `%llu`. -/
def unsigned {width : Nat} (value : BitVec width) : CString :=
  decimal value.toNat

def trueFalse (b : Bool) : CString :=
  if b then "true".toList else "false".toList

namespace Response

/-- The format strings of the responses, with their arguments in place. -/
def text : Response → CString
  | .requestIdRequired =>
      ("\x7b\"ok\":false,\"error\":\x7b\"code\":\"invalid_field\"," ++
        "\"message\":\"request_id is required\"\x7d\x7d\n").toList
  | .error requestId code message =>
      "\x7b\"request_id\":".toList ++ decimal requestId ++
        ",\"ok\":false,\"error\":\x7b\"code\":\"".toList ++ code.toList ++
        "\",\"message\":\"".toList ++ message.toList ++ "\"\x7d\x7d\n".toList
  | .hello requestId =>
      "\x7b\"request_id\":".toList ++ decimal requestId ++
        (",\"ok\":true,\"protocol_version\":1," ++
          "\"device\":\x7b\"name\":\"AC920-ACFL3432\",\"serial\":\"ac920\"," ++
          "\"firmware_version\":\"baremetal-bridge-0.1.0\",\"fpga_build_id\":\"pl-v1\"\x7d," ++
          "\"limits\":\x7b\"adc_sample_rate_hz\":250000000,\"min_frequency_hz\":500000," ++
          "\"max_frequency_hz\":108000000," ++
          "\"max_iq_streams\":1," ++
          "\"supported_iq_sample_rates_hz\":[125000,250000,500000,1000000]," ++
          "\"supported_sample_formats\":[\"SC16_LE\"],\"supported_psd_sources\":[]," ++
          "\"supported_psd_output_bins\":[],\"supported_psd_fps\":[]," ++
          "\"supported_psd_sample_formats\":[]," ++
          "\"max_psd_segments_per_frame\":0,\"max_psd_bins_per_segment\":0," ++
          "\"min_psd_span_hz\":0," ++
          "\"max_psd_span_hz\":0,\"max_udp_payload_bytes\":1200\x7d\x7d\n").toList
  | .ping requestId clientTimeMs deviceTimeMs =>
      "\x7b\"request_id\":".toList ++ decimal requestId ++
        ",\"ok\":true,\"client_time_ms\":".toList ++ decimal clientTimeMs ++
        ",\"device_time_ms\":".toList ++ unsigned deviceTimeMs ++ "\x7d\n".toList
  | .status requestId statusJson =>
      "\x7b\"request_id\":".toList ++ decimal requestId ++ ",\"ok\":true,\"status\":".toList ++
        statusJson ++ "\x7d\n".toList
  | .frontend requestId applied =>
      "\x7b\"request_id\":".toList ++ decimal requestId ++
        ",\"ok\":true,\"applied\":\x7b\"attenuator_db\":".toList ++ decimal applied.attenuatorDb ++
        ",\"lna\":\"".toList ++ applied.lna ++ "\",\"filter\":\"".toList ++ applied.filter ++
        "\"\x7d\x7d\n".toList
  | .rxStopped requestId =>
      "\x7b\"request_id\":".toList ++ decimal requestId ++
        ",\"ok\":true,\"applied\":\x7b\"stream_id\":0,\"enable\":false\x7d\x7d\n".toList
  | .rx requestId applied =>
      "\x7b\"request_id\":".toList ++ decimal requestId ++
        ",\"ok\":true,\"applied\":\x7b\"stream_id\":0,\"adc_channel\":".toList ++
        decimal applied.adcChannel ++ ",\"frequency_hz\":".toList ++ unsigned applied.frequencyHz ++
        ",\"mode\":\"".toList ++ applied.mode ++ "\",\"iq_sample_rate_hz\":".toList ++
        unsigned applied.iqSampleRateHz ++ ",\"bandwidth_hz\":".toList ++
        unsigned applied.bandwidthHz ++ ",\"sample_format\":\"SC16_LE\",\"decimation\":".toList ++
        unsigned applied.decimation ++ ",\"enable\":true\x7d\x7d\n".toList
  | .psdStopped requestId =>
      "\x7b\"request_id\":".toList ++ decimal requestId ++
        (",\"ok\":true,\"applied\":\x7b\"psd_id\":0,\"enable\":false," ++
          "\"enabled\":false\x7d\x7d\n").toList
  | .stopped requestId =>
      "\x7b\"request_id\":".toList ++ decimal requestId ++ ",\"ok\":true\x7d\n".toList

/-- The value of `ok` in the response. -/
def ok : Response → Bool
  | .requestIdRequired => false
  | .error _ _ _ => false
  | _ => true

/-- The keys of `applied` and the text of their values. -/
def applied : Response → Option (List (String × CString))
  | .frontend _ applied =>
      some [("attenuator_db", decimal applied.attenuatorDb), ("lna", quoted applied.lna),
        ("filter", quoted applied.filter)]
  | .rxStopped _ => some [("stream_id", "0".toList), ("enable", trueFalse false)]
  | .rx _ applied =>
      some [("stream_id", "0".toList), ("adc_channel", decimal applied.adcChannel),
        ("frequency_hz", unsigned applied.frequencyHz), ("mode", quoted applied.mode),
        ("iq_sample_rate_hz", unsigned applied.iqSampleRateHz),
        ("bandwidth_hz", unsigned applied.bandwidthHz), ("sample_format", quoted "SC16_LE".toList),
        ("decimation", unsigned applied.decimation), ("enable", trueFalse true)]
  | .psdStopped _ =>
      some [("psd_id", "0".toList), ("enable", trueFalse false), ("enabled", trueFalse false)]
  | _ => none

end Response

/-- What handling one line comes to. -/
structure Outcome where
  control : Control
  ops : List HwOp
  response : Response
  deriving DecidableEq, Repr

/-- The response as it stands in a buffer of `responseSize` characters. -/
def Outcome.responseText (o : Outcome) (responseSize : Nat) : CString :=
  fitted responseSize o.response.text

/-! ## Initial state -/

def sdrControlInit : Control where
  peerIp := "192.168.10.1".toList
  udpPeer :=
    { destinationIp := "192.168.10.1".toList
      iqPort := 9001
      psdPort := 9002
      statusPort := 9003 }
  rx :=
    { streamId := 0
      adcChannel := 0
      frequencyHz := 98500000
      iqSampleRateHz := 1000000
      bandwidthHz := 250000
      mode := "WFM".toList
      enabled := false
      decimation := sdrDecimationForRate 1000000 }
  frontend :=
    { attenuatorDb := 10
      lna := "bypass".toList
      filter := "LPF_108M".toList }
  statusSeq := 0
  iqPacketsForwarded := 0
  iqForwardErrors := 0
  helloSeen := false
  psdEnabled := false

/-- `sdr_control_set_peer_ip`: a null pointer or an empty string is ignored. -/
def sdrControlSetPeerIp (control : Control) : Option CString → Control
  | none => control
  | some peerIp =>
    if peerIp.isEmpty then control else { control with peerIp := copyString 48 peerIp }

/-! ## Commands -/

/-- `json_error`, with the state and the hardware calls made so far. -/
def refuse (control : Control) (ops : List HwOp) (requestId : Int) (code message : String) :
    Outcome :=
  { control := control, ops := ops, response := .error requestId code message }

/-- Each port is stored as soon as it is found. -/
def cmdHello (hw : Hw) (control : Control) (line : CString) (requestId : Int) : Outcome :=
  if jsonFindNumber line "protocol_version" ≠ some sdrProtocolVersion then
    refuse control [] requestId "unsupported_version" "protocol_version must be 1"
  else
    match jsonFindNumber line "iq_port" with
    | none => refuse control [] requestId "invalid_field" "udp.iq_port is required"
    | some iqPort =>
      -- Ports are narrowed to `uint16_t` without a check.
      let peer := { control.udpPeer with iqPort := BitVec.ofInt 16 iqPort }
      match jsonFindNumber line "psd_port" with
      | none =>
        refuse { control with udpPeer := peer } [] requestId "invalid_field"
          "udp.psd_port is required"
      | some psdPort =>
        let peer := { peer with psdPort := BitVec.ofInt 16 psdPort }
        match jsonFindNumber line "status_port" with
        | none =>
          refuse { control with udpPeer := peer } [] requestId "invalid_field"
            "udp.status_port is required"
        | some statusPort =>
          let peer :=
            { peer with
              statusPort := BitVec.ofInt 16 statusPort
              -- Without an address in the line the peer of the connection is used.
              destinationIp :=
                copyString 48 ((jsonFindString line "destination_ip" 48).getD control.peerIp) }
          let control := { control with udpPeer := peer }
          if hw.setUdpPeer then
            { control := { control with helloSeen := true }
              ops := [.setUdpPeer peer]
              response := .hello requestId }
          else
            refuse control [.setUdpPeer peer] requestId "hardware_fault" "failed to set UDP peer"

/-- A field that passes its check is stored even if a later one does not. -/
def cmdSetFrontend (control : Control) (line : CString) (requestId : Int) : Outcome :=
  -- A field the line does not name keeps its value.
  let number := jsonFindNumber line "attenuator_db"
  if number.any (fun n => !(n == 0 || n == 10 || n == 20 || n == 30)) then
    refuse control [] requestId "out_of_range" "attenuator_db must be 0/10/20/30"
  else
    let frontend :=
      { control.frontend with
        attenuatorDb := (number.map toInt32).getD control.frontend.attenuatorDb }
    let lna := jsonFindString line "lna" 24
    if lna.any (fun text => text != "on".toList && text != "bypass".toList) then
      refuse { control with frontend := frontend } [] requestId "invalid_field"
        "lna must be on or bypass"
    else
      let frontend :=
        { frontend with
          lna := (lna.map (copyString 12)).getD frontend.lna
          filter :=
            ((jsonFindString line "filter" 24).map (copyString 20)).getD frontend.filter }
      { control := { control with frontend := frontend }
        ops := []
        response := .frontend requestId frontend }

def programRxRegisters (rx : RxConfig) : List HwOp :=
  let controlWord :=
    if rx.adcChannel ≠ 0 then sdrDdcControlEnable ||| sdrDdcControlAdcChannel
    else sdrDdcControlEnable
  [.stopIqDma,
    .writeReg sdrRegDdc0Control 0,
    .writeReg sdrRegControl sdrControlSoftReset,
    .writeReg sdrRegClearCounts 1,
    .writeReg sdrRegDdc0FreqHzL (rx.frequencyHz.setWidth 32),
    .writeReg sdrRegDdc0FreqHzH ((rx.frequencyHz >>> 32).setWidth 32),
    .writeReg sdrRegDdc0FreqWord (sdrFreqWord rx.frequencyHz),
    .writeReg sdrRegDdc0IqRate rx.iqSampleRateHz,
    .writeReg sdrRegDdc0Decim rx.decimation,
    .writeReg sdrRegDdc0Bandwidth rx.bandwidthHz,
    .writeReg sdrRegDdc0Gain 30,
    .writeReg sdrRegDdc0GainDb 0,
    .writeReg sdrRegControl sdrControlCoreEnable,
    .writeReg sdrRegDdc0Control controlWord]

/-- The two writes that take both enables back. -/
def disableWrites : List HwOp :=
  [.writeReg sdrRegDdc0Control 0, .writeReg sdrRegControl 0]

/-- `sdr_control_stop_all`: the state it leaves. -/
def stopAll (control : Control) : Control :=
  { control with rx := { control.rx with enabled := false }, psdEnabled := false }

def stopAllOps : List HwOp :=
  .stopIqDma :: disableWrites

def supportedRate (rateHz : BitVec 32) : Bool :=
  rateHz == 125000 || rateHz == 250000 || rateHz == 500000 || rateHz == 1000000

/-- Code and message of a refused `set_rx`. -/
structure Refusal where
  code : String
  message : String
  deriving DecidableEq, Repr

/-- The checks of `cmd_set_rx` with `enable` set: the configuration to program, in which a field
the line does not name keeps its stored value.  A field is narrowed to its type before it is
checked. -/
def nextRx (stored : RxConfig) (line : CString) : Except Refusal RxConfig := do
  -- `enabled` is set here in both cases: the line says so, or says nothing.
  let next := { stored with enabled := true }
  let next :=
    { next with streamId := ((jsonFindNumber line "stream_id").map toInt32).getD next.streamId }
  if next.streamId ≠ 0 then
    throw ⟨"out_of_range", "Milestone 1 bridge supports stream_id 0 only"⟩
  let next :=
    { next with
      adcChannel := ((jsonFindNumber line "adc_channel").map toInt32).getD next.adcChannel }
  if next.adcChannel ≠ 0 ∧ next.adcChannel ≠ 1 then
    throw ⟨"out_of_range", "adc_channel must be 0 or 1"⟩
  let next :=
    { next with
      frequencyHz :=
        ((jsonFindNumber line "frequency_hz").map (BitVec.ofInt 64)).getD next.frequencyHz }
  if next.frequencyHz < 500000 ∨ next.frequencyHz > 108000000 then
    throw ⟨"out_of_range", "frequency_hz must stay within 0.5-108 MHz"⟩
  let next :=
    { next with
      iqSampleRateHz :=
        ((jsonFindNumber line "iq_sample_rate_hz").map (BitVec.ofInt 32)).getD
          next.iqSampleRateHz }
  if !supportedRate next.iqSampleRateHz then
    throw ⟨"out_of_range", "unsupported iq_sample_rate_hz"⟩
  let next :=
    { next with
      bandwidthHz :=
        ((jsonFindNumber line "bandwidth_hz").map (BitVec.ofInt 32)).getD next.bandwidthHz }
  -- The format is checked and not stored.
  if (jsonFindString line "sample_format" 24).any (fun text => text != "SC16_LE".toList) then
    throw ⟨"out_of_range", "sample_format must be SC16_LE"⟩
  let next :=
    { next with
      mode := ((jsonFindString line "mode" 24).map (copyString 12)).getD next.mode }
  return { next with decimation := sdrDecimationForRate next.iqSampleRateHz }

/-- The configuration is stored only after the DMA has been started; when that fails the enables
are taken back and the stored configuration is left as it was. -/
def cmdSetRx (hw : Hw) (control : Control) (line : CString) (requestId : Int) : Outcome :=
  if (jsonFindBool line "enable").getD true = false then
    { control := stopAll control, ops := stopAllOps, response := .rxStopped requestId }
  else
    match nextRx control.rx line with
    | .error refusal => refuse control [] requestId refusal.code refusal.message
    | .ok next =>
      if hw.startIqDma then
        { control := { control with rx := next }
          ops := programRxRegisters next ++ [.startIqDma]
          response := .rx requestId next }
      else
        refuse control (programRxRegisters next ++ [.startIqDma] ++ disableWrites) requestId
          "hardware_fault" "failed to start IQ DMA"

def cmdSetPsd (control : Control) (line : CString) (requestId : Int) : Outcome :=
  if jsonFindBool line "enable" = some false then
    { control := { control with psdEnabled := false }
      ops := []
      response := .psdStopped requestId }
  else
    refuse control [] requestId "invalid_command"
      "PSD is not implemented in the Milestone 1 PS bridge"

def roughDbfsFromRaw (raw : BitVec 32) : Int :=
  if 30000 ≤ raw then -1
  else if 23000 ≤ raw then -3
  else if 16000 ≤ raw then -6
  else if 8000 ≤ raw then -12
  else if 4000 ≤ raw then -18
  else if 2000 ≤ raw then -24
  else if 1000 ≤ raw then -30
  else if 500 ≤ raw then -36
  else if 250 ≤ raw then -42
  else if 0 < raw then -60
  else -120

/-- The text of `sdr_control_build_status_json`; `control` has the new `status_seq`. -/
def statusText (hw : Hw) (control : Control) : CString :=
  let st := hw.status
  "\x7b\"type\":\"status\",\"protocol_version\":1,\"seq\":".toList ++ unsigned control.statusSeq ++
    ",\"device_time_ms\":".toList ++ unsigned hw.millis ++
    ",\"hw\":\x7b\"core_id\":".toList ++ unsigned st.coreId ++
    ",\"core_version\":".toList ++ unsigned st.coreVersion ++
    ",\"control\":".toList ++ unsigned st.control ++
    ",\"adc_status\":".toList ++ unsigned st.adcStatus ++
    ",\"adc_timestamp\":".toList ++ unsigned st.adcTimestamp ++
    ",\"adc_debug_flags\":".toList ++ unsigned st.adcDebugFlags ++
    ",\"adc_dvalid_count\":".toList ++ unsigned st.adcDvalidCount ++
    ",\"adc_cfg_update_count\":".toList ++ unsigned st.adcCfgUpdateCount ++
    ",\"ddc0_samples\":".toList ++ unsigned st.ddc0Samples ++
    ",\"ddc0_overflow\":".toList ++ unsigned st.ddc0Overflow ++
    "\x7d,\"adc_sample_rate_hz\":250000000,\"adc\":\x7b\"channel\":".toList ++
    decimal control.rx.adcChannel ++
    ",\"peak_dbfs\":".toList ++ decimal (roughDbfsFromRaw st.adcPeak) ++
    ",\"rms_dbfs\":".toList ++ decimal (roughDbfsFromRaw st.adcRms) ++
    ",\"or_count\":".toList ++ unsigned st.orCount ++
    ",\"clip_count\":".toList ++ unsigned st.clipCount ++
    ",\"locked\":".toList ++ trueFalse (st.adcStatus &&& sdrAdcStatusLocked != 0) ++
    ",\"peak_raw\":".toList ++ unsigned st.adcPeak ++
    ",\"rms_raw\":".toList ++ unsigned st.adcRms ++
    "\x7d,\"frontend\":\x7b\"attenuator_db\":".toList ++ decimal control.frontend.attenuatorDb ++
    ",\"lna\":\"".toList ++ control.frontend.lna ++
    "\",\"filter\":\"".toList ++ control.frontend.filter ++
    "\"\x7d,\"streams\":[\x7b\"stream_id\":0,\"adc_channel\":".toList ++
    decimal control.rx.adcChannel ++
    ",\"enabled\":".toList ++ trueFalse control.rx.enabled ++
    ",\"frequency_hz\":".toList ++ unsigned control.rx.frequencyHz ++
    ",\"mode\":\"".toList ++ control.rx.mode ++
    "\",\"iq_sample_rate_hz\":".toList ++ unsigned control.rx.iqSampleRateHz ++
    ",\"bandwidth_hz\":".toList ++ unsigned control.rx.bandwidthHz ++
    ",\"sample_format\":\"SC16_LE\",\"seq\":0,\"fifo_overflow_count\":".toList ++
    unsigned st.ddc0Overflow ++
    ("\x7d],\"psd\":[\x7b\"psd_id\":0,\"enabled\":false,\"source\":\"adc0\",\"overflow_count\":0\x7d]," ++
      "\"network\":\x7b\"iq_packets_sent\":").toList ++
    unsigned control.iqPacketsForwarded ++
    ",\"psd_packets_sent\":0,\"status_packets_sent\":".toList ++ unsigned control.statusSeq ++
    ",\"iq_fifo_overflow_count\":".toList ++ unsigned st.ddc0Overflow ++
    ",\"iq_forward_errors\":".toList ++ unsigned control.iqForwardErrors ++ "\x7d\x7d\n".toList

/-- `sdr_control_build_status_json` into a buffer of `payloadSize` characters. -/
def sdrControlBuildStatusJson (hw : Hw) (control : Control) (payloadSize : Nat) :
    Control × CString :=
  let control := { control with statusSeq := control.statusSeq + 1 }
  (control, fitted payloadSize (statusText hw control))

/-- The `get_status` branch: the status text without its newline, in a response of its own. -/
def cmdGetStatus (hw : Hw) (control : Control) (requestId : Int) : Outcome :=
  let built := sdrControlBuildStatusJson hw control 1792
  -- `status_seq` is counted up whether or not the build succeeds.
  if built.2.isEmpty then
    refuse built.1 [] requestId "internal_error" "status build failed"
  else
    { control := built.1
      ops := []
      response :=
        .status requestId (if built.2.getLast? = some '\n' then built.2.dropLast else built.2) }

/-! ## Dispatch -/

inductive Command
  | hello
  | ping
  | getStatus
  | setFrontend
  | setRx
  | setPsd
  | stopAll
  | unknown
  deriving DecidableEq, Repr

/-- The chain of `json_cmd_is` tests. -/
def commandOf (line : CString) : Command :=
  if jsonCmdIs line "hello" then .hello
  else if jsonCmdIs line "ping" then .ping
  else if jsonCmdIs line "get_status" then .getStatus
  else if jsonCmdIs line "set_frontend" then .setFrontend
  else if jsonCmdIs line "set_rx" then .setRx
  else if jsonCmdIs line "set_psd" then .setPsd
  else if jsonCmdIs line "stop_all" then .stopAll
  else .unknown

def sdrControlHandleLine (hw : Hw) (control : Control) (line : CString) : Outcome :=
  -- Without a `request_id` there is nothing to answer to, whatever the command.
  match jsonRequestId line with
  | none => { control := control, ops := [], response := .requestIdRequired }
  | some requestId =>
    if !hasCmd line then
      refuse control [] requestId "invalid_field" "cmd is required"
    else
      match commandOf line with
      | .hello => cmdHello hw control line requestId
      | .ping =>
        { control := control
          ops := []
          response :=
            .ping requestId ((jsonFindNumber line "client_time_ms").getD 0) hw.millis }
      | .getStatus => cmdGetStatus hw control requestId
      | .setFrontend => cmdSetFrontend control line requestId
      | .setRx => cmdSetRx hw control line requestId
      | .setPsd => cmdSetPsd control line requestId
      | .stopAll =>
        { control := stopAll control, ops := stopAllOps, response := .stopped requestId }
      | .unknown => refuse control [] requestId "invalid_command" "unknown command"

end Bridge
end Sdr
