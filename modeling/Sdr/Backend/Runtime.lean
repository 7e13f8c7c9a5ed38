import Sdr.Backend.PsdReassembler
import Sdr.Protocol.Control
import Sdr.Lib.Machine

/-!
# BackendRuntime — waterfall commands and datagrams on the event loop

Model of `set_psd`, `stop_all` and `_handle_psd` of `rpi/backend/sdr_backend/runtime.py`.  They share
one event loop, so what stands between two `await`s is one step:

* a command is two steps, one up to its request to the device and one from the answer on;
* a datagram is one step, the `_handle_psd` that the receiver thread has queued.

Requests take the lock of the device client in the order in which they were made.  `pending` lists
them, the oldest first: only that one can be answered, but any of them may raise, as a request
without a connection does at once.  `connect_device` makes a `set_psd` of its own.
-/

namespace Sdr
namespace Backend

open Lib Lib.Struct Protocol

universe u

/-! ## Configuration -/

namespace Config

structure RxConfig where
  streamId : Int := 0
  adcChannel : Int := 0
  frequencyHz : Int := 98500000
  mode : PyStr := py "WFM"
  iqSampleRateHz : Int := 1000000
  bandwidthHz : Int := 250000
  sampleFormat : PyStr := py "SC16_LE"
  enable : Bool := true
  deriving DecidableEq, Repr

def RxConfig.asdict (config : RxConfig) : PyDict :=
  fieldsOf
    [("stream_id", .int config.streamId), ("adc_channel", .int config.adcChannel),
      ("frequency_hz", .int config.frequencyHz), ("mode", .str config.mode),
      ("iq_sample_rate_hz", .int config.iqSampleRateHz), ("bandwidth_hz", .int config.bandwidthHz),
      ("sample_format", .str config.sampleFormat), ("enable", .bool config.enable)]

structure PsdConfig where
  psdId : Int := 0
  source : PyStr := py "adc0"
  enable : Bool := true
  startFrequencyHz : Int := 500000
  stopFrequencyHz : Int := 108000000
  fftSize : Int := 16384
  outputBins : Int := 4096
  fps : Int := 10
  sampleFormat : PyStr := py "I16_DBFS_Q8"
  deriving DecidableEq, Repr

def PsdConfig.asdict (config : PsdConfig) : PyDict :=
  fieldsOf
    [("psd_id", .int config.psdId), ("source", .str config.source), ("enable", .bool config.enable),
      ("start_frequency_hz", .int config.startFrequencyHz),
      ("stop_frequency_hz", .int config.stopFrequencyHz), ("fft_size", .int config.fftSize),
      ("output_bins", .int config.outputBins), ("fps", .int config.fps),
      ("sample_format", .str config.sampleFormat)]

/-- The sections that the commands below read. -/
structure AppConfig where
  rx : RxConfig := {}
  psd : PsdConfig := {}
  deriving DecidableEq, Repr

end Config

open Config (AppConfig)

/-! ## State -/

/-- A command that waits for the device; `set_psd` with the fields that it has asked for. -/
inductive Call
  | stopAll
  | setPsd (defaults : PyDict)
  deriving DecidableEq

structure BackendRuntime where
  rx : PyDict
  psd : PyDict
  lastError : Option PyStr := none
  psdReassembler : PsdReassembler (List Byte) := {}
  pending : List Call := []

namespace BackendRuntime

/-- `__init__`. -/
def init (config : AppConfig) : BackendRuntime where
  rx := config.rx.asdict
  psd := config.psd.asdict

/-! ## `_handle_psd` -/

/-- The frame is the one that goes out to the subscribers of the spectrum. -/
def handlePsd (F : Type u) [PyFloat F] (s : BackendRuntime) (header : SdrPsdHeader)
    (payload : List Byte) : BackendRuntime × Except IngestError (Option (PsdFrame F)) :=
  match s.psdReassembler.ingest header payload with
  | (r, .ok (some frame)) =>
      ({ s with
          psdReassembler := r
          psd := s.psd.update (fieldsOf
            [("enabled", .bool true), ("frame_seq", .int frame.frameSeq),
              ("dropped_frame_count", .int frame.droppedFrameCount),
              ("missing_segment_count", .int frame.missingSegmentCount)]) },
        .ok (some frame))
  | (r, result) => ({ s with psdReassembler := r }, result)

/-! ## `set_psd` -/

/-- The configured values, with those that the caller gave in their place. -/
def psdDefaults (config : AppConfig) (fields : PyDict) : PyDict :=
  config.psd.asdict.update (fields.filter (fun entry => entry.2 != .none))

/-- `defaults.get("enable", True)`. -/
def enableOf (defaults : PyDict) : Bool :=
  pyBool (defaults.getD "enable" (.bool true))

def psdDisabledMessage : PyStr :=
  py "hardware PSD is disabled in backend config; using local IQ spectrum"

/-- What `set_psd` reports when the configuration has no PSD to switch on. -/
def psdUnsupported (defaults : PyDict) : PyDict :=
  defaults.update
    (fieldsOf [("enable", .bool false), ("enabled", .bool false), ("unsupported", .bool true)])

/-- `set_psd` up to its `await`: what it returns, if it does so at once. -/
def setPsd (config : AppConfig) (s : BackendRuntime) (fields : PyDict) :
    BackendRuntime × Option PyDict :=
  let defaults := psdDefaults config fields
  if enableOf defaults && !config.psd.enable then
    let applied := psdUnsupported defaults
    ({ s with psd := s.psd.update applied, lastError := some psdDisabledMessage },
      some (fieldsOf
        [("ok", .bool false),
          ("error", .dict (fieldsOf
            [("code", .str (py "invalid_command")), ("message", .str psdDisabledMessage)])),
          ("applied", .dict applied)]))
  else
    ({ s with pending := s.pending ++ [.setPsd defaults] }, none)

/-- `set_psd` from the answer on.  An `applied` that is no dictionary cannot be merged. -/
def setPsdAnswered (s : BackendRuntime) (defaults response : PyDict) :
    BackendRuntime × Option PyDict :=
  match response.getD "applied" (.dict defaults) with
  | .dict applied =>
      let s := { s with psd := s.psd.update applied }
      let enabled := PyDict.getD applied "enabled" (.bool false)
      if pyBool (PyDict.getD applied "enable" enabled) then
        (s, some response)
      else
        ({ s with psdReassembler := s.psdReassembler.reset }, some response)
  | _ => (s, none)

/-! ## `stop_all` -/

def stopAll (s : BackendRuntime) : BackendRuntime :=
  { s with pending := s.pending ++ [.stopAll] }

def stopAllAnswered (s : BackendRuntime) (response : PyDict) : BackendRuntime × Option PyDict :=
  ({ s with
      rx := s.rx.update (fieldsOf [("enable", .bool false)])
      psd := s.psd.update (fieldsOf [("enable", .bool false), ("enabled", .bool false)])
      psdReassembler := s.psdReassembler.reset },
    some response)

/-! ## Runs -/

inductive Event
  | handlePsd (header : SdrPsdHeader) (payload : List Byte)
  | stopAll
  | setPsd (fields : PyDict)
  /-- The oldest request has its answer. -/
  | answered (response : PyDict)
  /-- A request raises. -/
  | raised (index : Nat)

/-- What a command does with the device's answer and what it returns, `none` when it raises. -/
def resume (s : BackendRuntime) : Call → PyDict → BackendRuntime × Option PyDict
  | .stopAll, response => s.stopAllAnswered response
  | .setPsd defaults, response => s.setPsdAnswered defaults response

def answered (s : BackendRuntime) (response : PyDict) : BackendRuntime × Option PyDict :=
  match s.pending with
  | [] => (s, none)
  | call :: rest => resume { s with pending := rest } call response

def step (F : Type u) [PyFloat F] (config : AppConfig) (s : BackendRuntime) :
    Event → BackendRuntime
  | .handlePsd header payload => (s.handlePsd F header payload).1
  | .stopAll => s.stopAll
  | .setPsd fields => (s.setPsd config fields).1
  | .answered response => (s.answered response).1
  | .raised index => { s with pending := s.pending.eraseIdx index }

def run (F : Type u) [PyFloat F] (config : AppConfig) (es : List Event) : BackendRuntime :=
  runFrom (step F config) (init config) es

end BackendRuntime

end Backend
end Sdr
