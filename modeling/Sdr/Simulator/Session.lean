import Sdr.Simulator.Device
import Mathlib.Data.List.Forall2

/-!
# Session — the lines of the owning client and their answers

Model of the loop of `_handle_client` for the client that owns the device.  A line is read, dispatched and
answered; an exception that `_dispatch` does not catch, a line that `readline` does not take and a response
that cannot be encoded all end the session.

`LineAnswered` says of a server and of the next line that none of this happens, command by command.  A
session answers every line exactly when every line meets it (`session_answers_iff`).
-/

namespace Sdr
namespace Simulator

open Lib Protocol

/-! ## Lines and answers -/

/-- A line on the wire, without the newline at its end. -/
structure WireLine where
  content : List UInt8
  newline_notMem : 10 ∉ content

/-- What `readline` returns. -/
def WireLine.data (line : WireLine) : List UInt8 :=
  line.content ++ [10]

/-- The limit of a `StreamReader`. -/
def streamLimit : Nat := 65536

inductive SessionEvent
  | line (deviceTimeMs : Int) (line : WireLine)
  | iqTurn
  | psdTurn (clock : Nat → Int)
  | statusTurn

structure Session where
  server : FakeAc920Server
  isOpen : Bool := true
  replies : List (List UInt8) := []

namespace Session

variable (host : Host) (peerIp : PyStr)

/-- What is written back for a line; `none` when the handler raises. -/
def answer (s : FakeAc920Server) (deviceTimeMs : Int) (line : WireLine) : Option (List UInt8) :=
  if line.content.length ≤ streamLimit then
    match (s.request host deviceTimeMs peerIp line.data).2 with
    | .ok response => encodeJsonLine host.tables response
    | .error _ => none
  else
    none

/-- The server after a line; one that `readline` does not take is not dispatched. -/
def afterLine (s : FakeAc920Server) (deviceTimeMs : Int) (line : WireLine) : FakeAc920Server :=
  if line.content.length ≤ streamLimit then (s.request host deviceTimeMs peerIp line.data).1 else s

def step (session : Session) : SessionEvent → Session
  | .line deviceTimeMs line =>
    if session.isOpen then
      let server := afterLine host peerIp session.server deviceTimeMs line
      match answer host peerIp session.server deviceTimeMs line with
      | some data => { session with server := server, replies := session.replies ++ [data] }
      | none => { session with server := server.release, isOpen := false }
    else session
  | .iqTurn => { session with server := session.server.step host .iqTurn }
  | .psdTurn clock => { session with server := session.server.step host (.psdTurn clock) }
  | .statusTurn => { session with server := session.server.step host .statusTurn }

end Session

/-- The lines among the events. -/
def linesOf (es : List SessionEvent) : List WireLine :=
  es.filterMap fun
    | .line _ line => some line
    | _ => none

/-- The codes a request can be refused with. -/
def refusalCodes : List String :=
  ["invalid_json", "invalid_field", "invalid_command", "out_of_range", "unsupported_version"]

/-- The error object of a response. -/
def HasErrorCode (response : PyDict) (code : String) : Prop :=
  ∃ error, response.get? "error" = some (.dict error) ∧
    PyDict.get? error "code" = some (.str (py code))

/-- The response to a request with this id, if the line had one. -/
structure Responds (T : PyTables) (line : List UInt8) (response : PyDict) : Prop where
  requestId : ∀ request, decodeJsonLine T line = some request →
    isInt (request.getD "request_id" .none) = true →
    response.get? "request_id" = some (request.getD "request_id" .none)
  ok : ∃ ok, response.get? "ok" = some (.bool ok)
  code : response.get? "ok" = some (.bool false) → ∃ code ∈ refusalCodes, HasErrorCode response code

/-- The bytes are one line of JSON that responds to the line. -/
def Answers (T : PyTables) (line : WireLine) (data : List UInt8) : Prop :=
  ∃ response, encodeJsonLine T response = some data ∧ OneLine data ∧ Responds T line.data response

/-! ## Lines that are answered -/

/-- The exception of the first conversion that raises. -/
def firstRaised : List (Except PyError Int) → Option PyError
  | [] => none
  | .ok _ :: rest => firstRaised rest
  | .error e :: _ => some e

/-- An exception is raised only if `_dispatch` catches it. -/
def Guarded (raised : Option PyError) : Prop :=
  ∀ e, raised = some e → Caught e

section Conditions

variable (T : PyTables) (s : FakeAc920Server) (request : PyDict)

def HelloAnswered : Prop :=
  pyEqInt 1 (request.getD "protocol_version" .none) = true →
    ∀ udp, request.get? "udp" = some (.dict udp) →
      Guarded (firstRaised [portOf T udp "iq_port", portOf T udp "psd_port", portOf T udp "status_port"])

def StatusAnswered : Prop :=
  Encodable s.frontend.lna ∧ Encodable s.frontend.filter ∧
    (∀ i, (s.streams i).enabled = true → Encodable (s.streams i).mode) ∧
    Encodable s.psd.config.source

def FrontendAnswered : Prop :=
  (∀ value, request.get? "attenuator_db" = some value → Guarded (firstRaised [pyInt T value])) ∧
    ((∀ value, request.get? "attenuator_db" = some value →
        ∃ n, pyInt T value = .ok n ∧ AttenuatorStep n) →
      ¬ BadLna T s request →
      Encodable (strField T request "lna" s.frontend.lna) ∧
        Encodable (strField T request "filter" s.frontend.filter))

def RxAnswered : Prop :=
  Guarded (firstRaised [intField T request "stream_id" 0]) ∧
    ∀ i, RxTarget T request i →
      pyBool (request.getD "enable" (.bool (s.streams i).enabled)) = true →
      Guarded (firstRaised
          [intField T request "adc_channel" (s.streams i).adcChannel,
            intField T request "frequency_hz" (s.streams i).frequencyHz,
            intField T request "iq_sample_rate_hz" (s.streams i).iqSampleRateHz,
            intField T request "bandwidth_hz" (s.streams i).bandwidthHz]) ∧
        ∀ a, intField T request "adc_channel" (s.streams i).adcChannel = .ok a →
        ∀ f, intField T request "frequency_hz" (s.streams i).frequencyHz = .ok f →
        ∀ r, intField T request "iq_sample_rate_hz" (s.streams i).iqSampleRateHz = .ok r →
        ∀ b, intField T request "bandwidth_hz" (s.streams i).bandwidthHz = .ok b →
          supportedRate r = true → Encodable (strField T request "mode" (s.streams i).mode)

def PsdAnswered : Prop :=
  if pyBool (request.getD "enable" (request.getD "enabled" (.bool false))) then
    Guarded (firstRaised
        [intField T request "psd_id" 0, intField T request "start_frequency_hz" 500000,
          intField T request "stop_frequency_hz" 108000000, intField T request "fft_size" 16384,
          intField T request "output_bins" 4096, intField T request "fps" 10]) ∧
      ∀ applied, requestedPsd T request = .ok applied → applied.check = .ok () →
        Encodable applied.sampleFormat
  else
    Encodable s.psd.config.source ∧ Encodable s.psd.config.sampleFormat

/-- The command can be carried out, or refused, and the response can be encoded. -/
def CommandAnswered (cmd : PyStr) : Command → Prop
  | .hello => HelloAnswered T request
  | .ping => PyJson.encodable (request.getD "client_time_ms" .none) = true
  | .getStatus => StatusAnswered s
  | .setFrontend => FrontendAnswered T s request
  | .setRx => RxAnswered T s request
  | .stopAll => True
  | .setPsd => PsdAnswered T s request
  | .unknown => Encodable cmd

end Conditions

/-- The line is taken by `readline`, and what it asks for is answered. -/
def LineAnswered (T : PyTables) (s : FakeAc920Server) (line : WireLine) : Prop :=
  line.content.length ≤ streamLimit ∧
    ∀ request cmd command, Asks T line.data request cmd command →
      CommandAnswered T s request cmd command

/-! ## What a command comes to -/

/-- Every way in which a command can end. -/
inductive Outcome (requestId : PyValue) : Except PyError PyDict → Prop
  | done (fields : List (String × PyValue)) :
      Outcome requestId (.ok (buildResponse (some requestId) true fields))
  | refused (code : String) (hcode : code ∈ refusalCodes) (message : PyStr) :
      Outcome requestId (.ok (buildError (some requestId) code message))
  | raised (e : PyError) (he : e.MessageEncodable) : Outcome requestId (.error e)

section Outcomes

variable {T : PyTables}

theorem messageEncodable_of_intField {request : PyDict} {key : String} {stored : Int} {e : PyError}
    (h : intField T request key stored = .error e) : e.MessageEncodable := by
  unfold intField at h
  split at h
  · exact messageEncodable_of_pyInt T h
  · cases h

theorem messageEncodable_of_portOf {udp : PyDict} {key : String} {e : PyError}
    (h : portOf T udp key = .error e) : e.MessageEncodable := by
  unfold portOf at h
  split at h
  · exact messageEncodable_of_pyInt T h
  · cases h
    trivial

theorem messageEncodable_of_requestedPsd {request : PyDict} {e : PyError}
    (h : requestedPsd T request = .error e) : e.MessageEncodable := by
  unfold requestedPsd at h
  simp only [bind, Except.bind] at h
  repeat' split at h
  all_goals first
    | exact messageEncodable_of_intField (by cases h; assumption)
    | cases h

theorem messageEncodable_of_storeRx {stream : StreamState} {request : PyDict} {e : PyError}
    (h : (storeRx T stream request).2 = some e) : e.MessageEncodable := by
  cases storedRx T stream request with
  | adcChannel e' hadc hstore =>
      rw [hstore, Option.some.injEq] at h
      exact h ▸ messageEncodable_of_intField hadc
  | frequencyHz a e' hadc hfrequency hstore =>
      rw [hstore, Option.some.injEq] at h
      exact h ▸ messageEncodable_of_intField hfrequency
  | rateHz a f e' hadc hfrequency hrate hstore =>
      rw [hstore, Option.some.injEq] at h
      exact h ▸ messageEncodable_of_intField hrate
  | bandwidthHz a f r e' hadc hfrequency hrate hbandwidth hstore =>
      rw [hstore, Option.some.injEq] at h
      exact h ▸ messageEncodable_of_intField hbandwidth
  | all a f r b hadc hfrequency hrate hbandwidth hstore =>
      rw [hstore] at h
      cases h

variable (T)

theorem outcome_cmdHello (s : FakeAc920Server) (requestId : PyValue) (request : PyDict)
    (peerIp : PyStr) : Outcome requestId (cmdHello T s requestId request peerIp).2 := by
  unfold cmdHello
  split
  · exact .refused "unsupported_version" (by decide) _
  · split
    · dsimp only
      split
      next e he => exact .raised e (messageEncodable_of_portOf he)
      next =>
        split
        next e he => exact .raised e (messageEncodable_of_portOf he)
        next =>
          split
          next e he => exact .raised e (messageEncodable_of_portOf he)
          next => exact .done _
    · exact .refused "invalid_field" (by decide) _

theorem outcome_setLnaAndFilter (s : FakeAc920Server) (requestId : PyValue) (request : PyDict) :
    Outcome requestId (setLnaAndFilter T s requestId request).2 := by
  unfold setLnaAndFilter
  dsimp only
  split
  · exact .refused "invalid_field" (by decide) _
  · exact .done _

theorem outcome_cmdSetFrontend (s : FakeAc920Server) (requestId : PyValue) (request : PyDict) :
    Outcome requestId (cmdSetFrontend T s requestId request).2 := by
  unfold cmdSetFrontend
  split
  · exact outcome_setLnaAndFilter T s requestId request
  · split
    next e he => exact .raised e (messageEncodable_of_pyInt T he)
    next =>
      split
      · exact outcome_setLnaAndFilter T _ requestId request
      · exact .refused "out_of_range" (by decide) _

theorem outcome_cmdSetRx (s : FakeAc920Server) (requestId : PyValue) (request : PyDict) :
    Outcome requestId (cmdSetRx T s requestId request).2 := by
  unfold cmdSetRx
  split
  next e he => exact .raised e (messageEncodable_of_intField he)
  next =>
    split
    · exact .refused "out_of_range" (by decide) _
    · unfold setRx
      dsimp only
      split
      · exact .done _
      · split
        next stream e hstore => exact .raised e (messageEncodable_of_storeRx (by rw [hstore]))
        next =>
          split
          · exact .done _
          · exact .refused "out_of_range" (by decide) _

theorem code_of_check {c : PsdConfig} {e : CommandError} (h : c.check = .error e) :
    e.code = "out_of_range" := by
  unfold PsdConfig.check at h
  split_ifs at h
  all_goals
    cases h
    rfl

theorem outcome_cmdSetPsd (s : FakeAc920Server) (requestId : PyValue) (request : PyDict) :
    Outcome requestId (cmdSetPsd T s requestId request).2 := by
  unfold cmdSetPsd
  split
  · exact .done _
  · split
    next e he => exact .raised e (messageEncodable_of_requestedPsd he)
    next applied happlied =>
      split
      next e he =>
        refine .refused e.code ?_ _
        unfold PsdSender.setPsd at he
        split at he
        next hcheck =>
          cases he
          rw [code_of_check hcheck]
          decide
        next => cases he
      next => exact .done _

theorem outcome_execute (env : Surroundings) (s : FakeAc920Server) (requestId : PyValue)
    (cmd : PyStr) (request : PyDict) :
    Outcome requestId (execute T env s requestId cmd request).2 := by
  unfold execute
  split
  · exact outcome_cmdHello T s requestId request env.peerIp
  · exact .done _
  · exact .done _
  · exact outcome_cmdSetFrontend T s requestId request
  · exact outcome_cmdSetRx T s requestId request
  · exact .done _
  · exact outcome_cmdSetPsd T s requestId request
  · exact .refused "invalid_command" (by decide) _

end Outcomes

/-- What a command comes to can be written back. -/
def Goes : Except PyError PyDict → Prop
  | .ok response => PyJson.encodable (.dict response) = true
  | .error e => Caught e

section Commands

variable (T : PyTables) (s : FakeAc920Server) {requestId : PyValue} (request : PyDict)

theorem goes_done (hid : isInt requestId = true) (fields : List (String × PyValue)) :
    Goes (.ok (buildResponse (some requestId) true fields)) ↔
      ∀ field ∈ fields, PyJson.encodable field.2 = true :=
  encodable_buildResponse (by simpa using hid) true fields

theorem goes_refused (hid : isInt requestId = true) (code : String) (message : PyStr) :
    Goes (.ok (buildError (some requestId) code message)) ↔ Encodable message :=
  encodable_buildError (by simpa using hid) code message

@[simp] theorem guarded_none : Guarded none := by
  simp [Guarded]

@[simp] theorem guarded_some (e : PyError) : Guarded (some e) ↔ Caught e := by
  simp [Guarded]

theorem goes_cmdHello (hid : isInt requestId = true) (peerIp : PyStr) :
    Goes (cmdHello T s requestId request peerIp).2 ↔ HelloAnswered T request := by
  have hfields : ∀ field ∈ helloFields, PyJson.encodable field.2 = true := by
    simp [helloFields, encodable_py]
  unfold cmdHello HelloAnswered
  cases pyEqInt 1 (request.getD "protocol_version" .none) with
  | false =>
      simp [goes_refused hid, encodable_py]
  | true =>
      simp only [Bool.not_true, Bool.false_eq_true, if_false, true_imp_iff]
      split
      next udp hudp =>
        rw [hudp]
        cases hiq : portOf T udp "iq_port" with
        | error e =>
            simp [hiq, firstRaised, Goes]
        | ok iqPort =>
            cases hpsd : portOf T udp "psd_port" with
            | error e =>
                simp [hiq, hpsd, firstRaised, Goes]
            | ok psdPort =>
                cases hstatus : portOf T udp "status_port" with
                | error e =>
                    simp [hiq, hpsd, hstatus, firstRaised, Goes]
                | ok statusPort =>
                    simpa [hiq, hpsd, hstatus, firstRaised, goes_done hid] using hfields
      next hudp =>
        refine iff_of_true ((goes_refused hid _ _).2 (encodable_py _)) ?_
        intro udp h
        exact absurd h (hudp udp)

theorem goes_setLnaAndFilter (hid : isInt requestId = true) :
    Goes (setLnaAndFilter T s requestId request).2 ↔
      (¬ BadLna T s request →
        Encodable (strField T request "lna" s.frontend.lna) ∧
          Encodable (strField T request "filter" s.frontend.filter)) := by
  unfold setLnaAndFilter
  by_cases h : BadLna T s request
  · simp [h, goes_refused hid, encodable_py]
  · simp [h, goes_done hid, frontendFields]

theorem goes_cmdSetFrontend (hid : isInt requestId = true) :
    Goes (cmdSetFrontend T s requestId request).2 ↔ FrontendAnswered T s request := by
  unfold cmdSetFrontend FrontendAnswered
  cases hvalue : request.get? "attenuator_db" with
  | none =>
      simp [goes_setLnaAndFilter T s request hid]
  | some value =>
      cases hn : pyInt T value with
      | error e =>
          simp [hn, firstRaised, Goes]
      | ok n =>
          by_cases hstep : AttenuatorStep n
          · simp [hn, firstRaised, hstep, goes_setLnaAndFilter T _ request hid, BadLna]
          · simp [hn, firstRaised, hstep, goes_refused hid, encodable_py]

theorem goes_cmdGetStatus (hid : isInt requestId = true) (config : FakeAc920Config)
    (deviceTimeMs : Int) :
    Goes (cmdGetStatus config deviceTimeMs s requestId).2 ↔ StatusAnswered s := by
  have hstreams (s : FakeAc920Server) : (∀ v ∈ statusStreams s, PyJson.encodable v = true) ↔
      ∀ i, (s.streams i).enabled = true → Encodable (s.streams i).mode := by
    have hstatus (stream : StreamState) :
        PyJson.encodable (streamStatus stream) = true ↔ Encodable stream.mode := by
      simp [streamStatus, encodable_py]
    simp only [statusStreams, List.forall_mem_map, List.mem_filter, List.mem_finRange, true_and,
      hstatus]
  unfold cmdGetStatus StatusAnswered
  simp only [goes_done hid]
  simp [statusFields, frontendFields, hstreams, encodable_py, and_assoc]

theorem goes_setRx (hid : isInt requestId = true) (i : Fin 2) :
    Goes (setRx T s requestId request i).2 ↔
      (pyBool (request.getD "enable" (.bool (s.streams i).enabled)) = true →
        Guarded (firstRaised
            [intField T request "adc_channel" (s.streams i).adcChannel,
              intField T request "frequency_hz" (s.streams i).frequencyHz,
              intField T request "iq_sample_rate_hz" (s.streams i).iqSampleRateHz,
              intField T request "bandwidth_hz" (s.streams i).bandwidthHz]) ∧
          ∀ a, intField T request "adc_channel" (s.streams i).adcChannel = .ok a →
          ∀ f, intField T request "frequency_hz" (s.streams i).frequencyHz = .ok f →
          ∀ r, intField T request "iq_sample_rate_hz" (s.streams i).iqSampleRateHz = .ok r →
          ∀ b, intField T request "bandwidth_hz" (s.streams i).bandwidthHz = .ok b →
            supportedRate r = true → Encodable (strField T request "mode" (s.streams i).mode)) := by
  unfold setRx
  cases henable : pyBool (request.getD "enable" (.bool (s.streams i).enabled)) with
  | false =>
      simp [henable, goes_done hid]
  | true =>
      -- The first field that does not convert decides; otherwise it is the rate.
      cases storedRx T (s.streams i) request with
      | adcChannel e hadc hstore =>
          simp [henable, hstore, hadc, firstRaised, Goes]
      | frequencyHz a e hadc hfrequency hstore =>
          simp [henable, hstore, hadc, hfrequency, firstRaised, Goes]
      | rateHz a f e hadc hfrequency hrate hstore =>
          simp [henable, hstore, hadc, hfrequency, hrate, firstRaised, Goes]
      | bandwidthHz a f r e hadc hfrequency hrate hbandwidth hstore =>
          simp [henable, hstore, hadc, hfrequency, hrate, hbandwidth, firstRaised, Goes]
      | all a f r b hadc hfrequency hrate hbandwidth hstore =>
          cases hsupported : supportedRate r with
          | false =>
              simp [henable, hstore, hadc, hfrequency, hrate, hbandwidth, firstRaised, hsupported,
                goes_refused hid, encodable_py]
          | true =>
              simp [henable, hstore, hadc, hfrequency, hrate, hbandwidth, firstRaised, hsupported,
                goes_done hid, rxFields, StreamState.resetForEnable, encodable_py]

theorem goes_cmdSetRx (hid : isInt requestId = true) :
    Goes (cmdSetRx T s requestId request).2 ↔ RxAnswered T s request := by
  unfold cmdSetRx RxAnswered
  cases hstream : intField T request "stream_id" 0 with
  | error e =>
      simp [hstream, RxTarget, firstRaised, Goes]
  | ok streamId =>
      cases hi : streamIndex streamId with
      | none =>
          simp [hi, hstream, RxTarget, firstRaised, goes_refused hid, encodable_py]
      | some i =>
          have htarget : RxTarget T request i := ⟨streamId, hstream, hi⟩
          simp only [hi, firstRaised, guarded_none, true_and, goes_setRx T s request hid]
          constructor
          · intro hanswered j hj
            rw [hj.unique T htarget]
            exact hanswered
          · intro hanswered
            exact hanswered i htarget

/-- The exception of a computation that raises. -/
def raisedBy {α : Type} : Except PyError α → Option PyError
  | .error e => some e
  | .ok _ => none

/-- The configuration is built exactly when nothing raises, else with the first exception. -/
theorem firstRaised_requestedPsd :
    firstRaised
        [intField T request "psd_id" 0, intField T request "start_frequency_hz" 500000,
          intField T request "stop_frequency_hz" 108000000, intField T request "fft_size" 16384,
          intField T request "output_bins" 4096, intField T request "fps" 10] =
      raisedBy (requestedPsd T request) := by
  unfold requestedPsd
  cases intField T request "psd_id" 0 with
  | error e => rfl
  | ok psdId =>
  cases intField T request "start_frequency_hz" 500000 with
  | error e => rfl
  | ok startFrequencyHz =>
  cases intField T request "stop_frequency_hz" 108000000 with
  | error e => rfl
  | ok stopFrequencyHz =>
  cases intField T request "fft_size" 16384 with
  | error e => rfl
  | ok fftSize =>
  cases intField T request "output_bins" 4096 with
  | error e => rfl
  | ok outputBins =>
  cases intField T request "fps" 10 with
  | error e => rfl
  | ok fps => rfl

theorem goes_cmdSetPsd (hid : isInt requestId = true) :
    Goes (cmdSetPsd T s requestId request).2 ↔ PsdAnswered T s request := by
  have hrequested := firstRaised_requestedPsd T request
  unfold cmdSetPsd PsdAnswered
  cases henable : pyBool (request.getD "enable" (request.getD "enabled" (.bool false))) with
  | false =>
      simp [goes_done hid, psdFields]
  | true =>
      cases hpsd : requestedPsd T request with
      | error e =>
          rw [hpsd, raisedBy] at hrequested
          simp [hrequested, Goes]
      | ok applied =>
          rw [hpsd, raisedBy] at hrequested
          cases hcheck : applied.check with
          | error e =>
              simp [hrequested, PsdSender.setPsd, hcheck, goes_refused hid, encodable_py]
          | ok u =>
              have hsource : applied.source = py "adc0" := by
                by_contra hne
                simp [PsdConfig.check, hne] at hcheck
              simp [hrequested, PsdSender.setPsd, hcheck, goes_done hid, psdFields, hsource,
                encodable_py]

theorem goes_execute (hid : isInt requestId = true) (env : Surroundings) (cmd : PyStr) :
    Goes (execute T env s requestId cmd request).2 ↔
      CommandAnswered T s request cmd (commandOf cmd) := by
  unfold execute
  cases hcommand : commandOf cmd with
  | hello =>
      exact goes_cmdHello T s request hid env.peerIp
  | ping =>
      simp [goes_done hid, CommandAnswered]
  | getStatus =>
      exact goes_cmdGetStatus s hid env.config env.deviceTimeMs
  | setFrontend =>
      exact goes_cmdSetFrontend T s request hid
  | setRx =>
      exact goes_cmdSetRx T s request hid
  | stopAll =>
      simp [goes_done hid, CommandAnswered]
  | setPsd =>
      exact goes_cmdSetPsd T s request hid
  | unknown =>
      simp [goes_refused hid, CommandAnswered, encodable_py]

end Commands

/-! ## One line -/

/-- There is a response, and it can be encoded. -/
def Written : Except PyError PyDict → Prop
  | .ok response => PyJson.encodable (.dict response) = true
  | .error _ => False

theorem written_catchInvalid {requestId : PyValue} (hid : isInt requestId = true)
    {outcome : Except PyError PyDict} (h : Outcome requestId outcome) :
    Written (catchInvalid requestId outcome) ↔ Goes outcome := by
  cases h with
  | done fields =>
      exact Iff.rfl
  | refused code hcode message =>
      exact Iff.rfl
  | raised e he =>
      cases e with
      | typeError message =>
          exact iff_of_true ((goes_refused hid _ _).2 he) trivial
      | valueError message =>
          exact iff_of_true ((goes_refused hid _ _).2 he) trivial
      | overflowError _ | keyError _ | zeroDivisionError | structError | osError =>
          exact Iff.rfl

section Lines

variable (host : Host) (peerIp : PyStr) (s : FakeAc920Server) (deviceTimeMs : Int) (line : WireLine)

theorem written_request_iff :
    Written (s.request host deviceTimeMs peerIp line.data).2 ↔
      ∀ request cmd command, Asks host.tables line.data request cmd command →
        CommandAnswered host.tables s request cmd command := by
  cases dispatched (T := host.tables)
    { config := host.config, deviceTimeMs := deviceTimeMs, peerIp := peerIp } s line.data with
  | rejected requestId code message hnone hint hid hcode hreply =>
      refine iff_of_true ?_ (fun request cmd command h => absurd h (hnone request cmd command))
      unfold FakeAc920Server.request
      rw [hreply]
      exact (encodable_buildError hint code (py message)).2 (encodable_py _)
  | asked request cmd command h =>
      unfold FakeAc920Server.request
      rw [h.dispatch_eq, written_catchInvalid h.isInt_requestId (outcome_execute _ _ _ _ _ _),
        goes_execute _ _ _ h.isInt_requestId, h.commandOf_eq]
      constructor
      · intro hanswered request' cmd' command' h'
        rcases h.unique h' with ⟨rfl, rfl⟩
        have hcmd : cmd = cmd' := by
          simpa using h.get?_cmd.symm.trans h'.get?_cmd
        rw [← hcmd]
        exact hanswered
      · intro hanswered
        exact hanswered request cmd command h

theorem isSome_answer_iff :
    (Session.answer host peerIp s deviceTimeMs line).isSome = true ↔
      LineAnswered host.tables s line := by
  unfold Session.answer LineAnswered
  rw [← written_request_iff host peerIp s deviceTimeMs line]
  split
  next hlength =>
    simp only [hlength, true_and]
    cases (s.request host deviceTimeMs peerIp line.data).2 with
    | ok response => exact encodeJsonLine_isSome host.tables response
    | error e => simp [Written]
  next hlength =>
    simp [hlength]

theorem hasErrorCode_buildError (requestId : Option PyValue) {code : String}
    (hcode : code ∈ ERROR_CODES) (message : PyStr) :
    HasErrorCode (buildError requestId code message) code := by
  refine ⟨fieldsOf [("code", .str (py code)), ("message", .str message)], ?_, ?_⟩
  · have hkey : (py "error" == py "request_id") = false ∧ (py "error" == py "ok") = false := by
      decide +kernel
    cases requestId with
    | none =>
        simp [buildError, buildResponse, hcode, PyDict.get?, List.lookup_cons, hkey, fieldsOf]
    | some requestId =>
        simp [buildError, buildResponse, hcode, PyDict.get?, List.lookup_cons, hkey, fieldsOf]
  · simp [PyDict.get?, lookup_fieldsOf]

theorem responds_request {response : PyDict}
    (h : (s.request host deviceTimeMs peerIp line.data).2 = .ok response) :
    Responds host.tables line.data response := by
  have hcodes : ∀ code ∈ refusalCodes, code ∈ ERROR_CODES := by decide
  unfold FakeAc920Server.request at h
  cases dispatched (T := host.tables)
    { config := host.config, deviceTimeMs := deviceTimeMs, peerIp := peerIp } s line.data with
  | rejected requestId code message hnone hint hid hcode hreply =>
      rw [hreply, Except.ok.injEq] at h
      subst h
      have hmem : code ∈ refusalCodes := by
        rcases hcode with rfl | rfl
        · decide
        · decide
      refine ⟨?_, ⟨false, by simp [buildError]⟩, ?_⟩
      · intro request hdecode hisInt
        rw [hid request hdecode hisInt]
        simp [buildError]
      · intro _
        exact ⟨code, hmem, hasErrorCode_buildError requestId (hcodes code hmem) _⟩
  | asked request cmd command hasks =>
      rw [hasks.dispatch_eq] at h
      have hrequest {request' : PyDict} (hdecode : decodeJsonLine host.tables line.data = some request') :
          request' = request := Option.some.inj (hdecode.symm.trans hasks.decoded)
      -- A caught exception is answered as a refusal.
      have hrefused (code : String) (hmem : code ∈ refusalCodes) (message : PyStr) :
          Responds host.tables line.data
            (buildError (some (request.getD "request_id" .none)) code message) := by
        refine ⟨?_, ⟨false, by simp [buildError]⟩, ?_⟩
        · intro request' hdecode _
          rw [hrequest hdecode]
          simp [buildError]
        · intro _
          exact ⟨code, hmem, hasErrorCode_buildError _ (hcodes code hmem) message⟩
      have houtcome := outcome_execute host.tables
        { config := host.config, deviceTimeMs := deviceTimeMs, peerIp := peerIp } s
        (request.getD "request_id" .none) cmd request
      generalize (execute host.tables
        { config := host.config, deviceTimeMs := deviceTimeMs, peerIp := peerIp } s
        (request.getD "request_id" .none) cmd request).2 = outcome at h houtcome
      cases houtcome with
      | done fields =>
          simp only [catchInvalid, Except.ok.injEq] at h
          subst h
          refine ⟨?_, ⟨true, by simp⟩, ?_⟩
          · intro request' hdecode _
            rw [hrequest hdecode]
            simp
          · intro hok
            simp at hok
      | refused code hcode message =>
          simp only [catchInvalid, Except.ok.injEq] at h
          subst h
          exact hrefused code hcode message
      | raised e he =>
          cases e with
          | typeError message =>
              simp only [catchInvalid, Except.ok.injEq] at h
              subst h
              exact hrefused "invalid_field" (by decide) message
          | valueError message =>
              simp only [catchInvalid, Except.ok.injEq] at h
              subst h
              exact hrefused "invalid_field" (by decide) message
          | overflowError _ | keyError _ | zeroDivisionError | structError | osError =>
              simp [catchInvalid] at h

theorem answers_of_answer {data : List UInt8}
    (h : Session.answer host peerIp s deviceTimeMs line = some data) :
    Answers host.tables line data := by
  unfold Session.answer at h
  split at h
  · split at h
    next response hresponse =>
      exact ⟨response, h, oneLine_encodeJsonLine host.tables h,
        responds_request host peerIp s deviceTimeMs line hresponse⟩
    next => cases h
  · cases h

end Lines

/-! ## Whole sessions -/

namespace Session

/-- The lines that are read while the session is open are answered. -/
def EventAnswered (host : Host) (session : Session) : SessionEvent → Prop
  | .line _ line => LineAnswered host.tables session.server line
  | _ => True

variable (host : Host) (peerIp : PyStr)

def run (s : FakeAc920Server) (es : List SessionEvent) : Session :=
  runFrom (step host peerIp) { server := s } es

theorem isOpen_step_iff (session : Session) (e : SessionEvent) (h : session.isOpen = true) :
    (session.step host peerIp e).isOpen = true ↔ EventAnswered host session e := by
  cases e with
  | line deviceTimeMs line =>
      rw [EventAnswered, ← isSome_answer_iff host peerIp session.server deviceTimeMs line]
      simp only [step, h, if_true]
      cases answer host peerIp session.server deviceTimeMs line with
      | none => simp
      | some data => simp
  | iqTurn => exact iff_of_true h trivial
  | psdTurn clock => exact iff_of_true h trivial
  | statusTurn => exact iff_of_true h trivial

theorem closed_step (session : Session) (e : SessionEvent) (h : session.isOpen = false) :
    (session.step host peerIp e).isOpen = false := by
  cases e with
  | line deviceTimeMs line => simp [step, h]
  | iqTurn => exact h
  | psdTurn clock => exact h
  | statusTurn => exact h

theorem isOpen_run_iff (s : FakeAc920Server) (es : List SessionEvent) :
    (run host peerIp s es).isOpen = true ↔
      Along (step host peerIp) (EventAnswered host) { server := s } es := by
  have hstep (session : Session) (e : SessionEvent) :
      (step host peerIp session e).isOpen = true ↔
        session.isOpen = true ∧ EventAnswered host session e := by
    cases h : session.isOpen with
    | true => simp [isOpen_step_iff host peerIp session e h]
    | false => simp [closed_step host peerIp session e h]
  have hiff : (runFrom (step host peerIp) { server := s } es).isOpen = true ↔
      true = true ∧ Along (step host peerIp) (EventAnswered host) { server := s } es :=
    runFrom_iff_along (I := fun _ => True) (P := fun session => session.isOpen = true)
      (fun _ _ _ => trivial) (fun session e _ => hstep session e) trivial es
  simpa [run] using hiff

/-- While the session is open, the replies answer the lines one by one. -/
theorem replies_run (s : FakeAc920Server) (es : List SessionEvent) :
    (run host peerIp s es).isOpen = true →
      List.Forall₂ (Answers host.tables) (linesOf es) (run host peerIp s es).replies := by
  refine history_invariant (C := fun _ _ => True)
    (P := fun es (session : Session) => session.isOpen = true →
      List.Forall₂ (Answers host.tables) (linesOf es) session.replies)
    (fun _ => List.Forall₂.nil) ?_ es (along_of_forall (fun _ _ _ => trivial))
  intro es e ih _ hopen
  generalize runFrom (step host peerIp) { server := s } es = session at ih hopen ⊢
  cases hbefore : session.isOpen with
  | false =>
      rw [closed_step host peerIp session e hbefore] at hopen
      exact absurd hopen (by decide)
  | true =>
      cases e with
      | line deviceTimeMs line =>
          simp only [step, hbefore, if_true] at hopen ⊢
          cases hanswer : answer host peerIp session.server deviceTimeMs line with
          | none =>
              simp [hanswer] at hopen
          | some data =>
              have hlines : linesOf (es ++ [.line deviceTimeMs line]) = linesOf es ++ [line] := by
                simp [linesOf]
              rw [hlines]
              exact List.rel_append (ih hbefore)
                (.cons (answers_of_answer host peerIp session.server deviceTimeMs line hanswer) .nil)
      | iqTurn =>
          simpa [linesOf, step] using ih hbefore
      | psdTurn clock =>
          simpa [linesOf, step] using ih hbefore
      | statusTurn =>
          simpa [linesOf, step] using ih hbefore

end Session

/-- A session stays open and answers its lines in order, each with one line of JSON that carries its
request id, exactly when every line is one that can be answered in the state it meets. -/
theorem session_answers_iff (host : Host) (peerIp : PyStr) (before : List FakeAc920Server.Event)
    (es : List SessionEvent) :
    ((Session.run host peerIp (FakeAc920Server.run host before) es).isOpen = true ∧
        List.Forall₂ (Answers host.tables) (linesOf es)
          (Session.run host peerIp (FakeAc920Server.run host before) es).replies) ↔
      Along (Session.step host peerIp) (Session.EventAnswered host)
        { server := FakeAc920Server.run host before } es := by
  rw [← Session.isOpen_run_iff]
  exact and_iff_left_of_imp (Session.replies_run host peerIp _ es)

/-- A `hello` that leaves out two of the ports. -/
def portsMissing : WireLine where
  content :=
    lineOf ("\x7b\"request_id\":1,\"cmd\":\"hello\",\"protocol_version\":1," ++
      "\"udp\":\x7b\"iq_port\":5000\x7d\x7d")
  newline_notMem := by decide +kernel

/-- Its `KeyError` is not caught, and the session ends without an answer. -/
theorem not_answered_portsMissing :
    ¬ ∀ (host : Host) (peerIp : PyStr) (before : List FakeAc920Server.Event)
      (es : List SessionEvent),
      (Session.run host peerIp (FakeAc920Server.run host before) es).isOpen = true ∧
        List.Forall₂ (Answers host.tables) (linesOf es)
          (Session.run host peerIp (FakeAc920Server.run host before) es).replies := by
  intro h
  exact absurd (h asciiHost (py "127.0.0.1") [] [.line 0 portsMissing]).1 (by decide +kernel)

end Simulator
end Sdr
