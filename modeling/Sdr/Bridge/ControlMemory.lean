import Sdr.Lib.CBuffer
import Sdr.Bridge.SdrControl

/-!
# ControlMemory — the control-line handler with its character arrays

Model of `ps/baremetal/src/sdr_control.c` again, one level below `SdrControl`: every string of the
handler is in its fixed array, the copying loops go through their indices, and the sizes are passed as
the code passes them.  A store outside an array, or reading an array as a string that no NUL ends, is
`none`.  Lines are only read, so they stay strings.
-/

namespace Sdr
namespace Bridge
namespace Memory

open Lib Lib.CString

/-! ## Data model -/

structure UdpPeer where
  destinationIp : CBuffer 48
  iqPort : BitVec 16
  psdPort : BitVec 16
  statusPort : BitVec 16

structure RxConfig where
  streamId : Int
  adcChannel : Int
  frequencyHz : BitVec 64
  iqSampleRateHz : BitVec 32
  bandwidthHz : BitVec 32
  mode : CBuffer 12
  enabled : Bool
  decimation : BitVec 32

structure FrontendConfig where
  attenuatorDb : Int
  lna : CBuffer 12
  filter : CBuffer 20

/-- `sdr_control_t`. -/
structure Control where
  peerIp : CBuffer 48
  udpPeer : UdpPeer
  rx : RxConfig
  frontend : FrontendConfig
  statusSeq : BitVec 32
  iqPacketsForwarded : BitVec 32
  iqForwardErrors : BitVec 32
  helloSeen : Bool
  psdEnabled : Bool

/-! What the structures hold when their arrays are used as strings. -/

def UdpPeer.contents (p : UdpPeer) : Option Bridge.UdpPeer :=
  p.destinationIp.read.map fun destinationIp =>
    { destinationIp := destinationIp
      iqPort := p.iqPort
      psdPort := p.psdPort
      statusPort := p.statusPort }

def RxConfig.contents (rx : RxConfig) : Option Bridge.RxConfig :=
  rx.mode.read.map fun mode =>
    { streamId := rx.streamId
      adcChannel := rx.adcChannel
      frequencyHz := rx.frequencyHz
      iqSampleRateHz := rx.iqSampleRateHz
      bandwidthHz := rx.bandwidthHz
      mode := mode
      enabled := rx.enabled
      decimation := rx.decimation }

def FrontendConfig.contents (f : FrontendConfig) : Option Bridge.FrontendConfig := do
  let lna ← f.lna.read
  let filter ← f.filter.read
  return { attenuatorDb := f.attenuatorDb, lna := lna, filter := filter }

def Control.contents (m : Control) : Option Bridge.Control := do
  let peerIp ← m.peerIp.read
  let udpPeer ← m.udpPeer.contents
  let rx ← m.rx.contents
  let frontend ← m.frontend.contents
  return {
    peerIp := peerIp
    udpPeer := udpPeer
    rx := rx
    frontend := frontend
    statusSeq := m.statusSeq
    iqPacketsForwarded := m.iqPacketsForwarded
    iqForwardErrors := m.iqForwardErrors
    helloSeen := m.helloSeen
    psdEnabled := m.psdEnabled }

/-- What a call finds in the arrays it declares, left there by whatever ran before, and whether its
formatting calls fail. -/
structure Scratch where
  pattern : CBuffer 48
  value : CBuffer 32
  text : CBuffer 24
  destIp : CBuffer 48
  statusJson : CBuffer 1792
  statusFails : Bool
  responseFails : Bool

/-! ## Copying and formatting -/

/-- The loop of `copy_string` at index `i`, with the rest of the source. -/
def copyLoop {size : Nat} (dstSize : Nat) (dst : CBuffer size) (i : Nat) :
    CString → Option (CBuffer size × Nat)
  | [] => some (dst, i)
  | c :: src =>
    if i + 1 < dstSize then
      (dst.store i c).bind fun dst => copyLoop dstSize dst (i + 1) src
    else
      some (dst, i)

def copyString {size : Nat} (dst : CBuffer size) (dstSize : Nat) :
    Option CString → Option (CBuffer size)
  | none => if dstSize = 0 then some dst else dst.store 0 nul
  | some src =>
    if dstSize = 0 then
      some dst
    else do
      let (dst, i) ← copyLoop dstSize dst 0 src
      dst.store i nul

/-- `copy_string` of a text that was looked up, if it was found. -/
def copyFound {size : Nat} (dst : CBuffer size) : Option CString → Option (CBuffer size)
  | some text => copyString dst size (some text)
  | none => some dst

/-- The text that was looked up, or else the string in an array. -/
def foundOr {size : Nat} (other : CBuffer size) : Option CString → Option CString
  | some text => some text
  | none => other.read

/-- `vsnprintf`, which returns a negative number when it fails. -/
def vsnprintf {size : Nat} (fails : Bool) (dst : CBuffer size) (dstSize : Nat) (text : CString) :
    Option (CBuffer size × Int) :=
  if fails then
    some (dst, -1)
  else
    (dst.snprintf dstSize text).map fun r => (r.1, (r.2 : Int))

def appendJson {size : Nat} (fails : Bool) (dst : CBuffer size) (dstSize : Nat) (text : CString) :
    Option (CBuffer size × Nat) :=
  if dstSize = 0 then
    some (dst, 0)
  else do
    let (dst, written) ← vsnprintf fails dst dstSize text
    if written < 0 then
      let dst ← dst.store 0 nul
      return (dst, 0)
    else if dstSize ≤ written.toNat then
      return (dst, dstSize - 1)
    else
      return (dst, written.toNat)

/-! ## Scanning a line -/

/-- The steps the three `json_find_*` functions share, with the pattern in its array. -/
def jsonFindValue (pattern : CBuffer 48) (line : CString) (key : String) :
    Option (Option CString) := do
  let (pattern, _) ← pattern.snprintf 48 (quoted key.toList)
  let word ← pattern.read
  let p := (strstr word line).bind fun p => strchr ':' (p.drop word.length)
  return p.map fun p => (p.drop 1).dropWhile (fun c => c == ' ' || c == '\t')

def jsonFindNumber (scratch : Scratch) (line : CString) (key : String) : Option (Option Int) := do
  let p ← jsonFindValue scratch.pattern line key
  return p.bind strtoll

def jsonFindBool (scratch : Scratch) (line : CString) (key : String) : Option (Option Bool) := do
  let p ← jsonFindValue scratch.pattern line key
  return p.bind fun p =>
    if "true".toList.isPrefixOf p then some true
    else if "false".toList.isPrefixOf p then some false
    else none

/-- The loop of `json_find_string` at index `i`: it stops at a quote, at the end of the line, and when
only the place for the NUL is left.  The rest of the line is where `p` then points. -/
def quotedLoop {size : Nat} (valueSize : Nat) (value : CBuffer size) (i : Nat) :
    CString → Option (CBuffer size × Nat × CString)
  | [] => some (value, i, [])
  | c :: p =>
    if c ≠ '"' ∧ i + 1 < valueSize then
      (value.store i c).bind fun value => quotedLoop valueSize value (i + 1) p
    else
      some (value, i, c :: p)

/-- The array is written in any case; the second part says whether a whole string was found. -/
def jsonFindString {size : Nat} (scratch : Scratch) (line : CString) (key : String)
    (value : CBuffer size) (valueSize : Nat) : Option (CBuffer size × Bool) :=
  if valueSize = 0 then
    some (value, false)
  else do
    let value ← value.store 0 nul
    match ← jsonFindValue scratch.pattern line key with
    | some ('"' :: p) =>
      let (value, i, p) ← quotedLoop valueSize value 0 p
      let value ← value.store i nul
      return (value, p.head? == some '"')
    | _ => return (value, false)

/-- `json_find_string` into an array of the size that is passed, and the array as a string where it
is used as one, after a success. -/
def findText {size : Nat} (scratch : Scratch) (line : CString) (key : String)
    (value : CBuffer size) : Option (CBuffer size × Option CString) := do
  let (value, found) ← jsonFindString scratch line key value size
  if found then
    let text ← value.read
    return (value, some text)
  else
    return (value, none)

def jsonRequestId (scratch : Scratch) (line : CString) : Option (Option Int) := do
  let value ← jsonFindNumber scratch line "request_id"
  return value.map toInt32

def jsonCmdIs (scratch : Scratch) (line : CString) (cmd : String) : Option Bool := do
  let (_, value) ← findText scratch line "cmd" scratch.value
  return value == some cmd.toList

/-! ## Commands -/

/-- What handling one line comes to: the length is what the function returns. -/
structure Handled (size : Nat) where
  control : Control
  ops : List HwOp
  response : CBuffer size
  length : Nat

section Commands

variable {size : Nat} (scratch : Scratch) (response : CBuffer size) (responseSize : Nat)

/-- A return through `append_json`. -/
def respond (control : Control) (ops : List HwOp) (r : Response) : Option (Handled size) := do
  let (response, length) ← appendJson scratch.responseFails response responseSize r.text
  return { control := control, ops := ops, response := response, length := length }

/-- A return through `json_error`. -/
def refuse (control : Control) (ops : List HwOp) (requestId : Int) (code message : String) :
    Option (Handled size) :=
  respond scratch response responseSize control ops (.error requestId code message)

def cmdHello (hw : Hw) (control : Control) (line : CString) (requestId : Int) :
    Option (Handled size) := do
  let version ← jsonFindNumber scratch line "protocol_version"
  if version ≠ some sdrProtocolVersion then
    refuse scratch response responseSize control [] requestId "unsupported_version"
      "protocol_version must be 1"
  else
    match ← jsonFindNumber scratch line "iq_port" with
    | none =>
      refuse scratch response responseSize control [] requestId "invalid_field"
        "udp.iq_port is required"
    | some iqPort =>
      let peer := { control.udpPeer with iqPort := BitVec.ofInt 16 iqPort }
      match ← jsonFindNumber scratch line "psd_port" with
      | none =>
        refuse scratch response responseSize { control with udpPeer := peer } [] requestId
          "invalid_field" "udp.psd_port is required"
      | some psdPort =>
        let peer := { peer with psdPort := BitVec.ofInt 16 psdPort }
        match ← jsonFindNumber scratch line "status_port" with
        | none =>
          refuse scratch response responseSize { control with udpPeer := peer } [] requestId
            "invalid_field" "udp.status_port is required"
        | some statusPort =>
          let (_, destIp) ← findText scratch line "destination_ip" scratch.destIp
          -- Without an address in the line the peer of the connection is copied.
          let source ← foundOr control.peerIp destIp
          let destinationIp ← copyString peer.destinationIp 48 (some source)
          let peer :=
            { peer with
              statusPort := BitVec.ofInt 16 statusPort
              destinationIp := destinationIp }
          let control := { control with udpPeer := peer }
          let asked ← peer.contents
          if hw.setUdpPeer then
            respond scratch response responseSize { control with helloSeen := true }
              [.setUdpPeer asked] (.hello requestId)
          else
            refuse scratch response responseSize control [.setUdpPeer asked] requestId
              "hardware_fault" "failed to set UDP peer"

/-- The two strings go through the one array `text`. -/
def cmdSetFrontend (control : Control) (line : CString) (requestId : Int) :
    Option (Handled size) := do
  let number ← jsonFindNumber scratch line "attenuator_db"
  if number.any (fun n => !(n == 0 || n == 10 || n == 20 || n == 30)) then
    refuse scratch response responseSize control [] requestId "out_of_range"
      "attenuator_db must be 0/10/20/30"
  else
    let frontend :=
      { control.frontend with
        attenuatorDb := (number.map toInt32).getD control.frontend.attenuatorDb }
    let (text, lna) ← findText scratch line "lna" scratch.text
    if lna.any (fun text => text != "on".toList && text != "bypass".toList) then
      refuse scratch response responseSize { control with frontend := frontend } [] requestId
        "invalid_field" "lna must be on or bypass"
    else
      let lnaArray ← copyFound frontend.lna lna
      let (_, filter) ← findText scratch line "filter" text
      let filterArray ← copyFound frontend.filter filter
      let frontend := { frontend with lna := lnaArray, filter := filterArray }
      let applied ← frontend.contents
      respond scratch response responseSize { control with frontend := frontend } []
        (.frontend requestId applied)

def stopAll (control : Control) : Control :=
  { control with rx := { control.rx with enabled := false }, psdEnabled := false }

/-- The checks of `cmd_set_rx` on its copy of the stored configuration. -/
def nextRx (stored : RxConfig) (line : CString) : Option (Except Refusal RxConfig) := do
  let next : RxConfig := { stored with enabled := true }
  let number ← jsonFindNumber scratch line "stream_id"
  let next : RxConfig := { next with streamId := (number.map toInt32).getD next.streamId }
  if next.streamId ≠ 0 then
    return .error ⟨"out_of_range", "Milestone 1 bridge supports stream_id 0 only"⟩
  let number ← jsonFindNumber scratch line "adc_channel"
  let next : RxConfig := { next with adcChannel := (number.map toInt32).getD next.adcChannel }
  if next.adcChannel ≠ 0 ∧ next.adcChannel ≠ 1 then
    return .error ⟨"out_of_range", "adc_channel must be 0 or 1"⟩
  let number ← jsonFindNumber scratch line "frequency_hz"
  let next : RxConfig :=
    { next with frequencyHz := (number.map (BitVec.ofInt 64)).getD next.frequencyHz }
  if next.frequencyHz < 500000 ∨ next.frequencyHz > 108000000 then
    return .error ⟨"out_of_range", "frequency_hz must stay within 0.5-108 MHz"⟩
  let number ← jsonFindNumber scratch line "iq_sample_rate_hz"
  let next : RxConfig :=
    { next with iqSampleRateHz := (number.map (BitVec.ofInt 32)).getD next.iqSampleRateHz }
  if !supportedRate next.iqSampleRateHz then
    return .error ⟨"out_of_range", "unsupported iq_sample_rate_hz"⟩
  let number ← jsonFindNumber scratch line "bandwidth_hz"
  let next : RxConfig :=
    { next with bandwidthHz := (number.map (BitVec.ofInt 32)).getD next.bandwidthHz }
  let (text, format) ← findText scratch line "sample_format" scratch.text
  if format.any (fun text => text != "SC16_LE".toList) then
    return .error ⟨"out_of_range", "sample_format must be SC16_LE"⟩
  let (_, mode) ← findText scratch line "mode" text
  let modeArray ← copyFound next.mode mode
  return .ok
    { next with mode := modeArray, decimation := sdrDecimationForRate next.iqSampleRateHz }

def cmdSetRx (hw : Hw) (control : Control) (line : CString) (requestId : Int) :
    Option (Handled size) := do
  let enable ← jsonFindBool scratch line "enable"
  if enable.getD true = false then
    respond scratch response responseSize (stopAll control) stopAllOps (.rxStopped requestId)
  else
    match ← nextRx scratch control.rx line with
    | .error refusal =>
      refuse scratch response responseSize control [] requestId refusal.code refusal.message
    | .ok next =>
      let applied ← next.contents
      if hw.startIqDma then
        respond scratch response responseSize { control with rx := next }
          (programRxRegisters applied ++ [.startIqDma]) (.rx requestId applied)
      else
        refuse scratch response responseSize control
          (programRxRegisters applied ++ [.startIqDma] ++ disableWrites) requestId
          "hardware_fault" "failed to start IQ DMA"

def cmdSetPsd (control : Control) (line : CString) (requestId : Int) : Option (Handled size) := do
  let enable ← jsonFindBool scratch line "enable"
  if enable = some false then
    respond scratch response responseSize { control with psdEnabled := false } []
      (.psdStopped requestId)
  else
    refuse scratch response responseSize control [] requestId "invalid_command"
      "PSD is not implemented in the Milestone 1 PS bridge"

/-- `sdr_control_build_status_json`: the new state, the array and the length. -/
def sdrControlBuildStatusJson {payloadSize : Nat} (fails : Bool) (hw : Hw) (control : Control)
    (payload : CBuffer payloadSize) (n : Nat) :
    Option (Control × CBuffer payloadSize × Nat) := do
  let control := { control with statusSeq := control.statusSeq + 1 }
  let contents ← control.contents
  let (payload, length) ← appendJson fails payload n (statusText hw contents)
  return (control, payload, length)

def cmdGetStatus (hw : Hw) (control : Control) (requestId : Int) : Option (Handled size) := do
  let (control, statusJson, statusLen) ←
    sdrControlBuildStatusJson scratch.statusFails hw control scratch.statusJson 1792
  if statusLen = 0 then
    refuse scratch response responseSize control [] requestId "internal_error"
      "status build failed"
  else
    -- The newline of the status text is overwritten by a NUL.
    let last ← statusJson.load (statusLen - 1)
    let statusJson ← if last = '\n' then statusJson.store (statusLen - 1) nul else pure statusJson
    let status ← statusJson.read
    respond scratch response responseSize control [] (.status requestId status)

/-! ## Dispatch -/

def commandOf (line : CString) : Option Command := do
  if ← jsonCmdIs scratch line "hello" then return .hello
  if ← jsonCmdIs scratch line "ping" then return .ping
  if ← jsonCmdIs scratch line "get_status" then return .getStatus
  if ← jsonCmdIs scratch line "set_frontend" then return .setFrontend
  if ← jsonCmdIs scratch line "set_rx" then return .setRx
  if ← jsonCmdIs scratch line "set_psd" then return .setPsd
  if ← jsonCmdIs scratch line "stop_all" then return .stopAll
  return .unknown

def dispatch (hw : Hw) (control : Control) (line : CString) (requestId : Int) :
    Command → Option (Handled size)
  | .hello => cmdHello scratch response responseSize hw control line requestId
  | .ping => do
    let clientTimeMs ← jsonFindNumber scratch line "client_time_ms"
    respond scratch response responseSize control []
      (.ping requestId (clientTimeMs.getD 0) hw.millis)
  | .getStatus => cmdGetStatus scratch response responseSize hw control requestId
  | .setFrontend => cmdSetFrontend scratch response responseSize control line requestId
  | .setRx => cmdSetRx scratch response responseSize hw control line requestId
  | .setPsd => cmdSetPsd scratch response responseSize control line requestId
  | .stopAll =>
    respond scratch response responseSize (stopAll control) stopAllOps (.stopped requestId)
  | .unknown =>
    refuse scratch response responseSize control [] requestId "invalid_command" "unknown command"

def sdrControlHandleLine (hw : Hw) (control : Control) (line : CString) :
    Option (Handled size) := do
  let response ← if 0 < responseSize then response.store 0 nul else pure response
  match ← jsonRequestId scratch line with
  | none => respond scratch response responseSize control [] .requestIdRequired
  | some requestId =>
    if !hasCmd line then
      refuse scratch response responseSize control [] requestId "invalid_field" "cmd is required"
    else
      let command ← commandOf scratch line
      dispatch scratch response responseSize hw control line requestId command

end Commands

/-! ## Initial state -/

/-- `sdr_control_init`: everything is zeroed and then filled in. -/
def sdrControlInit : Option Control := do
  let peerIp ← copyString (CBuffer.zeroed 48) 48 (some "192.168.10.1".toList)
  let destinationIp ← copyString (CBuffer.zeroed 48) 48 (some "192.168.10.1".toList)
  let mode ← copyString (CBuffer.zeroed 12) 12 (some "WFM".toList)
  let lna ← copyString (CBuffer.zeroed 12) 12 (some "bypass".toList)
  let filter ← copyString (CBuffer.zeroed 20) 20 (some "LPF_108M".toList)
  return {
    peerIp := peerIp
    udpPeer :=
      { destinationIp := destinationIp
        iqPort := 9001
        psdPort := 9002
        statusPort := 9003 }
    rx :=
      { streamId := 0
        adcChannel := 0
        frequencyHz := 98500000
        iqSampleRateHz := 1000000
        bandwidthHz := 250000
        mode := mode
        enabled := false
        decimation := sdrDecimationForRate 1000000 }
    frontend := { attenuatorDb := 10, lna := lna, filter := filter }
    statusSeq := 0
    iqPacketsForwarded := 0
    iqForwardErrors := 0
    helloSeen := false
    psdEnabled := false }

def sdrControlSetPeerIp (control : Control) : Option CString → Option Control
  | none => some control
  | some peerIp =>
    if peerIp.isEmpty then
      some control
    else do
      let peerIp ← copyString control.peerIp 48 (some peerIp)
      return { control with peerIp := peerIp }

end Memory
end Bridge
end Sdr
