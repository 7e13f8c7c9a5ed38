import Sdr.Protocol.Control
import Sdr.Simulator.PsdSender
import Sdr.Simulator.StreamState
import Mathlib.Logic.Function.Basic

/-!
# Server — the control side of the fake device

Model of the state and of `_dispatch` of `FakeAc920Server` in `simulator/fake_ac920/server.py`.  A command
returns the server as it leaves it together with its response or the exception it raises, because the
fields are assigned one by one and an exception keeps the assignments before it.

`_psd_config["enable"]` and `["enabled"]` are only ever set together; `psdEnabled` is both.
-/

namespace Sdr
namespace Simulator

open Lib Protocol

/-! ## State -/

structure FakeAc920Config extends IqConfig where
  dropEvery : Int := 0
  deriving DecidableEq, Repr

structure Frontend where
  attenuatorDb : Int := 10
  lna : PyStr := py "bypass"
  filter : PyStr := py "LPF_108M"
  deriving DecidableEq, Repr

/-- Address and port. -/
abbrev UdpDest := PyStr × Int

structure FakeAc920Server where
  udpDest : Option UdpDest := none
  udpPsdDest : Option UdpDest := none
  udpStatusDest : Option UdpDest := none
  /-- `_tx_task` has been started and has not ended; so for the other two. -/
  txRunning : Bool := false
  psdRunning : Bool := false
  statusRunning : Bool := true
  statusSeq : Nat := 0
  psd : PsdSender := {}
  psdEnabled : Bool := false
  frontend : Frontend := {}
  streams : Fin 2 → StreamState := fun i => { streamId := i.val }
  iqPacketsSent : Nat := 0
  psdPacketsSent : Nat := 0

/-- What a command comes to. -/
abbrev Reply := FakeAc920Server × Except PyError PyDict

namespace FakeAc920Server

def setStream (s : FakeAc920Server) (i : Fin 2) (stream : StreamState) : FakeAc920Server :=
  { s with streams := Function.update s.streams i stream }

/-- `_stop_all`. -/
def stopAll (s : FakeAc920Server) : FakeAc920Server :=
  { s with
    streams := fun i => { s.streams i with enabled := false }
    psdEnabled := false }

end FakeAc920Server

/-! ## Reading a request -/

section Commands

variable (T : PyTables)

/-- `int(request.get(key, stored))`. -/
def intField (request : PyDict) (key : String) (stored : Int) : Except PyError Int :=
  match request.get? key with
  | some value => pyInt T value
  | none => .ok stored

/-- `str(request.get(key, stored))`. -/
def strField (request : PyDict) (key : String) (stored : PyStr) : PyStr :=
  match request.get? key with
  | some value => pyStr T value
  | none => stored

/-- `int(udp[key])`. -/
def portOf (udp : PyDict) (key : String) : Except PyError Int :=
  match udp.get? key with
  | some value => pyInt T value
  | none => .error (.keyError (py key))

/-- `str(udp.get("destination_ip") or peer_ip)`. -/
def destinationIp (udp : PyDict) (peerIp : PyStr) : PyStr :=
  match udp.get? "destination_ip" with
  | some value => if pyBool value then pyStr T value else peerIp
  | none => peerIp

/-- `_streams` has the keys 0 and 1. -/
def streamIndex (streamId : Int) : Option (Fin 2) :=
  if streamId = 0 then some 0 else if streamId = 1 then some 1 else none

/-! ## `hello` -/

def helloFields : List (String × PyValue) :=
  [("protocol_version", .int 1),
    ("device", .dict (fieldsOf
      [("name", .str (py "fake-AC920-ACFL3432")), ("serial", .str (py "fake")),
        ("firmware_version", .str (py "0.1.0")), ("fpga_build_id", .str (py "fake"))])),
    ("limits", .dict (fieldsOf
      [("adc_sample_rate_hz", .int 250000000), ("min_frequency_hz", .int 500000),
        ("max_frequency_hz", .int 108000000), ("max_iq_streams", .int 2),
        ("supported_iq_sample_rates_hz",
          .list [.int 125000, .int 250000, .int 500000, .int 1000000]),
        ("supported_sample_formats", .list [.str (py "SC16_LE")]),
        ("supported_psd_sources", .list [.str (py "adc0")]),
        ("supported_psd_output_bins", .list [.int 4096]), ("supported_psd_fps", .list [.int 10]),
        ("supported_psd_sample_formats", .list [.str (py "I16_DBFS_Q8")]),
        ("max_psd_segments_per_frame", .int 8), ("max_psd_bins_per_segment", .int 512),
        ("min_psd_span_hz", .int 100000), ("max_psd_span_hz", .int 107500000),
        ("max_udp_payload_bytes", .int 1200)]))]

/-- Each destination is stored as soon as its port is converted. -/
def cmdHello (s : FakeAc920Server) (requestId : PyValue) (request : PyDict) (peerIp : PyStr) :
    Reply :=
  if !pyEqInt 1 (request.getD "protocol_version" .none) then
    (s, .ok (buildError (some requestId) "unsupported_version" (py "protocol_version must be 1")))
  else
    match request.get? "udp" with
    | some (.dict udp) =>
      let destIp := destinationIp T udp peerIp
      match portOf T udp "iq_port" with
      | .error e => (s, .error e)
      | .ok iqPort =>
        let s := { s with udpDest := some (destIp, iqPort) }
        match portOf T udp "psd_port" with
        | .error e => (s, .error e)
        | .ok psdPort =>
          let s := { s with udpPsdDest := some (destIp, psdPort) }
          match portOf T udp "status_port" with
          | .error e => (s, .error e)
          | .ok statusPort =>
            ({ s with udpStatusDest := some (destIp, statusPort) },
              .ok (buildResponse (some requestId) true helloFields))
    | _ => (s, .ok (buildError (some requestId) "invalid_field" (py "udp is required")))

/-! ## `set_frontend` -/

def frontendFields (frontend : Frontend) : List (String × PyValue) :=
  [("attenuator_db", .int frontend.attenuatorDb), ("lna", .str frontend.lna),
    ("filter", .str frontend.filter)]

/-- `attenuator_db in (0, 10, 20, 30)`. -/
def AttenuatorStep (n : Int) : Prop :=
  n = 0 ∨ n = 10 ∨ n = 20 ∨ n = 30

instance : DecidablePred AttenuatorStep :=
  fun n => inferInstanceAs (Decidable (n = 0 ∨ n = 10 ∨ n = 20 ∨ n = 30))

/-- The request has an `lna` that is neither of the two. -/
def BadLna (s : FakeAc920Server) (request : PyDict) : Prop :=
  (request.get? "lna").isSome = true ∧ strField T request "lna" s.frontend.lna ≠ py "on" ∧
    strField T request "lna" s.frontend.lna ≠ py "bypass"

instance (s : FakeAc920Server) (request : PyDict) : Decidable (BadLna T s request) :=
  inferInstanceAs (Decidable (_ ∧ _ ∧ _))

/-- The rest of `_cmd_set_frontend`, once the attenuator has been seen to. -/
def setLnaAndFilter (s : FakeAc920Server) (requestId : PyValue) (request : PyDict) : Reply :=
  if BadLna T s request then
    (s, .ok (buildError (some requestId) "invalid_field" (py "lna must be on or bypass")))
  else
    let frontend :=
      { s.frontend with
        lna := strField T request "lna" s.frontend.lna
        filter := strField T request "filter" s.frontend.filter }
    ({ s with frontend := frontend },
      .ok (buildResponse (some requestId) true
        [("applied", .dict (fieldsOf (frontendFields frontend)))]))

def cmdSetFrontend (s : FakeAc920Server) (requestId : PyValue) (request : PyDict) : Reply :=
  match request.get? "attenuator_db" with
  | none => setLnaAndFilter T s requestId request
  | some value =>
    match pyInt T value with
    | .error e => (s, .error e)
    | .ok attenuatorDb =>
      if AttenuatorStep attenuatorDb then
        setLnaAndFilter T { s with frontend := { s.frontend with attenuatorDb := attenuatorDb } }
          requestId request
      else
        (s, .ok (buildError (some requestId) "out_of_range"
          (py "attenuator_db must be 0/10/20/30")))

/-! ## `set_rx` -/

def supportedRate (rateHz : Int) : Bool :=
  rateHz == 125000 || rateHz == 250000 || rateHz == 500000 || rateHz == 1000000

/-- The five assignments of `_cmd_set_rx`; the exception, if one of them raises, keeps those before
it. -/
def storeRx (stream : StreamState) (request : PyDict) : StreamState × Option PyError :=
  match intField T request "adc_channel" stream.adcChannel with
  | .error e => (stream, some e)
  | .ok adcChannel =>
    let stream := { stream with adcChannel := adcChannel }
    match intField T request "frequency_hz" stream.frequencyHz with
    | .error e => (stream, some e)
    | .ok frequencyHz =>
      let stream :=
        { stream with
          frequencyHz := frequencyHz
          mode := strField T request "mode" stream.mode }
      match intField T request "iq_sample_rate_hz" stream.iqSampleRateHz with
      | .error e => (stream, some e)
      | .ok iqSampleRateHz =>
        let stream := { stream with iqSampleRateHz := iqSampleRateHz }
        match intField T request "bandwidth_hz" stream.bandwidthHz with
        | .error e => (stream, some e)
        | .ok bandwidthHz => ({ stream with bandwidthHz := bandwidthHz }, none)

def rxFields (stream : StreamState) : List (String × PyValue) :=
  [("stream_id", .int stream.streamId), ("adc_channel", .int stream.adcChannel),
    ("frequency_hz", .int stream.frequencyHz), ("mode", .str stream.mode),
    ("iq_sample_rate_hz", .int stream.iqSampleRateHz), ("bandwidth_hz", .int stream.bandwidthHz),
    ("sample_format", .str (py "SC16_LE")), ("decimation", .int stream.decimation),
    ("enable", .bool true)]

/-- `set_rx` on a stream that exists. -/
def setRx (s : FakeAc920Server) (requestId : PyValue) (request : PyDict) (i : Fin 2) : Reply :=
  let stream := s.streams i
  if !pyBool (request.getD "enable" (.bool stream.enabled)) then
    (s.setStream i { stream with enabled := false },
      .ok (buildResponse (some requestId) true
        [("applied", .dict (fieldsOf [("stream_id", .int i.val), ("enable", .bool false)]))]))
  else
    match storeRx T stream request with
    | (stream, some e) => (s.setStream i stream, .error e)
    | (stream, none) =>
      if supportedRate stream.iqSampleRateHz then
        let stream := { stream with enabled := true }.resetForEnable
        ({ s.setStream i stream with txRunning := true },
          .ok (buildResponse (some requestId) true
            [("applied", .dict (fieldsOf (rxFields stream)))]))
      else
        (s.setStream i stream,
          .ok (buildError (some requestId) "out_of_range" (py "unsupported iq_sample_rate_hz")))

def cmdSetRx (s : FakeAc920Server) (requestId : PyValue) (request : PyDict) : Reply :=
  match intField T request "stream_id" 0 with
  | .error e => (s, .error e)
  | .ok streamId =>
    match streamIndex streamId with
    | none => (s, .ok (buildError (some requestId) "out_of_range" (py "unsupported stream_id")))
    | some i => setRx T s requestId request i

/-! ## `set_psd` -/

def psdFields (config : PsdConfig) (enabled : Bool) : List (String × PyValue) :=
  [("psd_id", .int config.psdId), ("source", .str config.source), ("enable", .bool enabled),
    ("enabled", .bool enabled), ("start_frequency_hz", .int config.startFrequencyHz),
    ("stop_frequency_hz", .int config.stopFrequencyHz), ("fft_size", .int config.fftSize),
    ("output_bins", .int config.outputBins), ("fps", .int config.fps),
    ("sample_format", .str config.sampleFormat)]

/-- The configuration that a request asks for; it does not build on the one before. -/
def requestedPsd (request : PyDict) : Except PyError PsdConfig := do
  let psdId ← intField T request "psd_id" 0
  let startFrequencyHz ← intField T request "start_frequency_hz" 500000
  let stopFrequencyHz ← intField T request "stop_frequency_hz" 108000000
  let fftSize ← intField T request "fft_size" 16384
  let outputBins ← intField T request "output_bins" 4096
  let fps ← intField T request "fps" 10
  return {
    psdId := psdId
    source := strField T request "source" (py "adc0")
    startFrequencyHz := startFrequencyHz
    stopFrequencyHz := stopFrequencyHz
    fftSize := fftSize
    outputBins := outputBins
    fps := fps
    sampleFormat := strField T request "sample_format" (py "I16_DBFS_Q8") }

def cmdSetPsd (s : FakeAc920Server) (requestId : PyValue) (request : PyDict) : Reply :=
  if !pyBool (request.getD "enable" (request.getD "enabled" (.bool false))) then
    ({ s with psdEnabled := false },
      .ok (buildResponse (some requestId) true
        [("applied", .dict (fieldsOf (psdFields s.psd.config false)))]))
  else
    match requestedPsd T request with
    | .error e => (s, .error e)
    | .ok applied =>
      match s.psd.setPsd applied with
      | .error e => (s, .ok (buildError (some requestId) e.code (py e.message)))
      | .ok psd =>
        ({ s with psd := psd, psdEnabled := true, psdRunning := true },
          .ok (buildResponse (some requestId) true
            [("applied", .dict (fieldsOf (psdFields applied true)))]))

/-! ## `get_status` -/

def streamStatus (stream : StreamState) : PyValue :=
  .dict (fieldsOf
    [("stream_id", .int stream.streamId), ("adc_channel", .int stream.adcChannel),
      ("enabled", .bool stream.enabled), ("frequency_hz", .int stream.frequencyHz),
      ("mode", .str stream.mode), ("iq_sample_rate_hz", .int stream.iqSampleRateHz),
      ("bandwidth_hz", .int stream.bandwidthHz), ("sample_format", .str (py "SC16_LE")),
      ("seq", .int stream.seq), ("fifo_overflow_count", .int stream.fifoOverflowCount)])

def statusStreams (s : FakeAc920Server) : List PyValue :=
  ((List.finRange 2).filter fun i => (s.streams i).enabled).map fun i => streamStatus (s.streams i)

/-- The object of `_status_object`; `s` has the new `_status_seq`. -/
def statusFields (config : FakeAc920Config) (deviceTimeMs : Int) (s : FakeAc920Server) :
    List (String × PyValue) :=
  [("type", .str (py "status")), ("protocol_version", .int 1), ("seq", .int s.statusSeq),
    ("device_time_ms", .int deviceTimeMs), ("adc_sample_rate_hz", .int 250000000),
    ("adc", .dict (fieldsOf
      [("channel", .int 0), ("peak_dbfs", .float (PyFloat.ofDecimal true 145 (-1))),
        ("rms_dbfs", .float (PyFloat.ofDecimal true 312 (-1))),
        ("or_count", .int (if config.injectAdcOr then s.iqPacketsSent else 0)),
        ("clip_count", .int 0)])),
    ("frontend", .dict (fieldsOf (frontendFields s.frontend))),
    ("streams", .list (statusStreams s)),
    ("psd", .list [.dict (fieldsOf
      [("psd_id", .int s.psd.config.psdId), ("enabled", .bool s.psdEnabled),
        ("source", .str s.psd.config.source),
        ("start_frequency_hz", .int s.psd.config.startFrequencyHz),
        ("stop_frequency_hz", .int s.psd.config.stopFrequencyHz),
        ("fft_size", .int s.psd.config.fftSize), ("output_bins", .int s.psd.config.outputBins),
        ("fps", .int s.psd.config.fps), ("frame_seq", .int s.psd.frameSeq.toNat),
        ("dropped_frame_count", .int 0), ("missing_segment_count", .int 0),
        ("overflow_count", .int 0)])]),
    ("network", .dict (fieldsOf
      [("iq_packets_sent", .int s.iqPacketsSent), ("psd_packets_sent", .int s.psdPacketsSent),
        ("status_packets_sent", .int s.statusSeq),
        ("iq_fifo_overflow_count",
          .int ((s.streams 0).fifoOverflowCount + (s.streams 1).fifoOverflowCount)),
        ("psd_fifo_overflow_count", .int 0)]))]

def cmdGetStatus (config : FakeAc920Config) (deviceTimeMs : Int) (s : FakeAc920Server)
    (requestId : PyValue) : Reply :=
  let s := { s with statusSeq := s.statusSeq + 1 }
  (s, .ok (buildResponse (some requestId) true
    [("status", .dict (fieldsOf (statusFields config deviceTimeMs s)))]))

/-! ## Dispatch -/

inductive Command
  | hello
  | ping
  | getStatus
  | setFrontend
  | setRx
  | stopAll
  | setPsd
  | unknown
  deriving DecidableEq, Repr

def commandOf (cmd : PyStr) : Command :=
  if cmd = py "hello" then .hello
  else if cmd = py "ping" then .ping
  else if cmd = py "get_status" then .getStatus
  else if cmd = py "set_frontend" then .setFrontend
  else if cmd = py "set_rx" then .setRx
  else if cmd = py "stop_all" then .stopAll
  else if cmd = py "set_psd" then .setPsd
  else .unknown

/-- What a request meets besides the server: the configuration, the clock and the peer's address. -/
structure Surroundings where
  config : FakeAc920Config := {}
  deviceTimeMs : Int := 0
  peerIp : PyStr := py "127.0.0.1"

def execute (env : Surroundings) (s : FakeAc920Server) (requestId : PyValue) (cmd : PyStr)
    (request : PyDict) : Reply :=
  match commandOf cmd with
  | .hello => cmdHello T s requestId request env.peerIp
  | .ping =>
    (s, .ok (buildResponse (some requestId) true
      [("client_time_ms", request.getD "client_time_ms" .none),
        ("device_time_ms", .int env.deviceTimeMs)]))
  | .getStatus => cmdGetStatus env.config env.deviceTimeMs s requestId
  | .setFrontend => cmdSetFrontend T s requestId request
  | .setRx => cmdSetRx T s requestId request
  | .stopAll => (s.stopAll, .ok (buildResponse (some requestId) true []))
  | .setPsd => cmdSetPsd T s requestId request
  | .unknown =>
    (s, .ok (buildError (some requestId) "invalid_command" (py "unknown command " ++ cmd)))

/-- `except (TypeError, ValueError) as exc`; any other exception goes on. -/
def catchInvalid (requestId : PyValue) : Except PyError PyDict → Except PyError PyDict
  | .error (.typeError message) => .ok (buildError (some requestId) "invalid_field" message)
  | .error (.valueError message) => .ok (buildError (some requestId) "invalid_field" message)
  | outcome => outcome

/-- `_dispatch` turns the exception into an error response. -/
def Caught : PyError → Prop
  | .typeError _ => True
  | .valueError _ => True
  | _ => False

instance : DecidablePred Caught
  | .typeError _ | .valueError _ => isTrue trivial
  | .overflowError _ | .keyError _ | .zeroDivisionError | .structError | .osError =>
    isFalse (fun h => h)

def dispatch (env : Surroundings) (s : FakeAc920Server) (line : List UInt8) : Reply :=
  match decodeJsonLine T line with
  | none => (s, .ok (buildError none "invalid_json" (py "request is not valid JSON")))
  | some request =>
    let requestId := request.getD "request_id" .none
    if !isInt requestId then
      (s, .ok (buildError none "invalid_field" (py "request_id is required")))
    else
      match request.get? "cmd" with
      | some (.str cmd) =>
        let reply := execute T env s requestId cmd request
        (reply.1, catchInvalid requestId reply.2)
      | _ => (s, .ok (buildError (some requestId) "invalid_field" (py "cmd is required")))

/-! ## What a line asks for -/

/-- The line is a request of the command `command`. -/
structure Asks (line : List UInt8) (request : PyDict) (cmd : PyStr) (command : Command) : Prop where
  decoded : decodeJsonLine T line = some request
  isInt_requestId : isInt (request.getD "request_id" .none) = true
  get?_cmd : request.get? "cmd" = some (.str cmd)
  commandOf_eq : commandOf cmd = command

variable {T}

theorem Asks.dispatch_eq {line : List UInt8} {request : PyDict} {cmd : PyStr} {command : Command}
    (h : Asks T line request cmd command) (env : Surroundings) (s : FakeAc920Server) :
    dispatch T env s line =
      ((execute T env s (request.getD "request_id" .none) cmd request).1,
        catchInvalid (request.getD "request_id" .none)
          (execute T env s (request.getD "request_id" .none) cmd request).2) := by
  simp [dispatch, h.decoded, h.isInt_requestId, h.get?_cmd]

theorem Asks.unique {line : List UInt8} {request request' : PyDict} {cmd cmd' : PyStr}
    {command command' : Command} (h : Asks T line request cmd command)
    (h' : Asks T line request' cmd' command') : request = request' ∧ command = command' := by
  have hrequest : request = request' := Option.some.inj (h.decoded.symm.trans h'.decoded)
  subst hrequest
  have hcmd := h.get?_cmd.symm.trans h'.get?_cmd
  simp only [Option.some.injEq, PyValue.str.injEq] at hcmd
  subst hcmd
  exact ⟨rfl, h.commandOf_eq.symm.trans h'.commandOf_eq⟩

/-- A line that asks for nothing is answered with an error and leaves the server alone. -/
inductive Dispatched (env : Surroundings) (s : FakeAc920Server) (line : List UInt8) : Prop
  | rejected (requestId : Option PyValue) (code message : String)
      (hnone : ∀ request cmd command, ¬ Asks T line request cmd command)
      (hint : ∀ id, requestId = some id → isInt id = true)
      (hid : ∀ request, decodeJsonLine T line = some request →
        isInt (request.getD "request_id" .none) = true →
        requestId = some (request.getD "request_id" .none))
      (hcode : code = "invalid_json" ∨ code = "invalid_field")
      (hreply : dispatch T env s line = (s, .ok (buildError requestId code (py message))))
  | asked (request : PyDict) (cmd : PyStr) (command : Command) (h : Asks T line request cmd command)

theorem dispatched (env : Surroundings) (s : FakeAc920Server) (line : List UInt8) :
    Dispatched (T := T) env s line := by
  cases hdecode : decodeJsonLine T line with
  | none =>
      refine .rejected none "invalid_json" "request is not valid JSON" ?_ (by simp) ?_ (.inl rfl)
        (by simp [dispatch, hdecode])
      · intro request cmd command h
        simp [h.decoded] at hdecode
      · intro request h
        simp [h] at hdecode
  | some request =>
      cases hid : isInt (request.getD "request_id" .none) with
      | false =>
          refine .rejected none "invalid_field" "request_id is required" ?_ (by simp) ?_ (.inr rfl)
            (by simp [dispatch, hdecode, hid])
          · intro request' cmd command h
            have hsame := Option.some.inj (hdecode.symm.trans h.decoded)
            subst hsame
            exact absurd (hid.symm.trans h.isInt_requestId) (by decide)
          · intro request' h hint
            have hsame := Option.some.inj (hdecode.symm.trans h)
            subst hsame
            exact absurd (hid.symm.trans hint) (by decide)
      | true =>
          by_cases hcmd : ∃ cmd, request.get? "cmd" = some (.str cmd)
          · rcases hcmd with ⟨cmd, hcmd⟩
            exact .asked request cmd (commandOf cmd) ⟨hdecode, hid, hcmd, rfl⟩
          · refine .rejected (some (request.getD "request_id" .none)) "invalid_field"
              "cmd is required" ?_ (by simpa using hid) ?_ (.inr rfl) ?_
            · intro request' cmd command h
              have hsame := Option.some.inj (hdecode.symm.trans h.decoded)
              subst hsame
              exact hcmd ⟨cmd, h.get?_cmd⟩
            · intro request' h _
              rw [Option.some.inj (hdecode.symm.trans h)]
            · simp only [dispatch, hdecode, hid, Bool.not_true, Bool.false_eq_true, if_false]
              split
              next cmd heq => exact absurd ⟨cmd, heq⟩ hcmd
              next => rfl

end Commands

end Simulator
end Sdr
