import Sdr.Simulator.Device

/-!
# Refusals — what a refused request leaves behind

`_cmd_hello`, `_cmd_set_frontend` and `_cmd_set_rx` assign the fields of the server one by one and refuse,
or raise, between two assignments.  The three predicates ending in `Spoils` say when something new has been
stored by then; a refusal leaves the settings alone exactly when none of them holds
(`refusalKeeps_iff`).  `_cmd_set_psd` checks a dictionary of its own first and is not among them.
-/

namespace Sdr
namespace Simulator

open Lib Protocol

/-- The settings of a server: everything that a request is for. -/
structure SameSettings (s s' : FakeAc920Server) : Prop where
  streams : s'.streams = s.streams
  frontend : s'.frontend = s.frontend
  psd : s'.psd = s.psd
  psdEnabled : s'.psdEnabled = s.psdEnabled
  udpDest : s'.udpDest = s.udpDest
  udpPsdDest : s'.udpPsdDest = s.udpPsdDest
  udpStatusDest : s'.udpStatusDest = s.udpStatusDest

theorem SameSettings.refl (s : FakeAc920Server) : SameSettings s s :=
  ⟨rfl, rfl, rfl, rfl, rfl, rfl, rfl⟩

/-- A refusal of the line leaves the settings as they were. -/
def RefusalKeeps (host : Host) (s : FakeAc920Server) (deviceTimeMs : Int) (peerIp : PyStr)
    (line : List UInt8) : Prop :=
  ∀ response, (s.request host deviceTimeMs peerIp line).2 = .ok response →
    response.get? "ok" = some (.bool false) →
    SameSettings s (s.request host deviceTimeMs peerIp line).1

/-! ## Refusals -/

/-- What a command comes to is refused. -/
def Refused : Except PyError PyDict → Prop
  | .error e => Caught e
  | .ok response => response.get? "ok" = some (.bool false)

instance : DecidablePred Refused
  | .error e => inferInstanceAs (Decidable (Caught e))
  | .ok response => inferInstanceAs (Decidable (response.get? "ok" = some (.bool false)))

@[simp] theorem refused_error (e : PyError) : Refused (.error e) ↔ Caught e := Iff.rfl

@[simp] theorem refused_buildResponse (requestId : Option PyValue) (ok : Bool)
    (fields : List (String × PyValue)) :
    Refused (.ok (buildResponse requestId ok fields)) ↔ ok = false := by
  simp [Refused]

@[simp] theorem refused_buildError (requestId : Option PyValue) (code : String) (message : PyStr) :
    Refused (.ok (buildError requestId code message)) := by
  simp [buildError]

theorem exists_catchInvalid_iff (requestId : PyValue) (outcome : Except PyError PyDict) :
    (∃ response, catchInvalid requestId outcome = .ok response ∧
      response.get? "ok" = some (.bool false)) ↔ Refused outcome := by
  cases outcome with
  | ok response =>
      simp [catchInvalid, Refused]
  | error e =>
      cases e
      all_goals simp [catchInvalid, Caught, buildError]

/-- The same for what a command comes to. -/
def Keeps (s : FakeAc920Server) (reply : Reply) : Prop :=
  Refused reply.2 → SameSettings s reply.1

theorem Asks.refusalKeeps_iff {host : Host} {line : List UInt8} {request : PyDict} {cmd : PyStr}
    {command : Command} (h : Asks host.tables line request cmd command) (s : FakeAc920Server)
    (deviceTimeMs : Int) (peerIp : PyStr) :
    RefusalKeeps host s deviceTimeMs peerIp line ↔
      Keeps s (execute host.tables
        { config := host.config, deviceTimeMs := deviceTimeMs, peerIp := peerIp } s
        (request.getD "request_id" .none) cmd request) := by
  unfold RefusalKeeps Keeps FakeAc920Server.request
  rw [h.dispatch_eq, ← exists_catchInvalid_iff (request.getD "request_id" .none)]
  simp only [exists_imp, and_imp]

/-! ## `hello` -/

section Commands

variable (T : PyTables)

/-- A `hello` that is refused for its second or third port although it has stored a new destination. -/
def HelloSpoils (s : FakeAc920Server) (peerIp : PyStr) (request : PyDict) : Prop :=
  pyEqInt 1 (request.getD "protocol_version" .none) = true ∧
    ∃ udp, request.get? "udp" = some (.dict udp) ∧
      ∃ iqPort, portOf T udp "iq_port" = .ok iqPort ∧
        ((∃ e, portOf T udp "psd_port" = .error e ∧ Caught e ∧
            s.udpDest ≠ some (destinationIp T udp peerIp, iqPort)) ∨
          ∃ psdPort, portOf T udp "psd_port" = .ok psdPort ∧
            ∃ e, portOf T udp "status_port" = .error e ∧ Caught e ∧
              ¬ (s.udpDest = some (destinationIp T udp peerIp, iqPort) ∧
                s.udpPsdDest = some (destinationIp T udp peerIp, psdPort)))

theorem sameSettings_udpDest (s : FakeAc920Server) (dest : Option UdpDest) :
    SameSettings s { s with udpDest := dest } ↔ s.udpDest = dest := by
  constructor
  · intro h
    exact h.udpDest.symm
  · rintro rfl
    exact SameSettings.refl s

theorem sameSettings_udpDests (s : FakeAc920Server) (dest psdDest : Option UdpDest) :
    SameSettings s { s with udpDest := dest, udpPsdDest := psdDest } ↔
      s.udpDest = dest ∧ s.udpPsdDest = psdDest := by
  constructor
  · intro h
    exact ⟨h.udpDest.symm, h.udpPsdDest.symm⟩
  · rintro ⟨rfl, rfl⟩
    exact SameSettings.refl s

theorem keeps_cmdHello (s : FakeAc920Server) (requestId : PyValue) (request : PyDict)
    (peerIp : PyStr) :
    Keeps s (cmdHello T s requestId request peerIp) ↔ ¬ HelloSpoils T s peerIp request := by
  unfold Keeps cmdHello HelloSpoils
  cases hversion : pyEqInt 1 (request.getD "protocol_version" .none) with
  | false =>
      simp [SameSettings.refl]
  | true =>
      simp only [Bool.not_true, Bool.false_eq_true, if_false, true_and]
      split
      next udp hudp =>
        cases hiq : portOf T udp "iq_port" with
        | error e =>
            simp [hudp, hiq, SameSettings.refl]
        | ok iqPort =>
            cases hpsd : portOf T udp "psd_port" with
            | error e =>
                simp [hudp, hiq, hpsd, sameSettings_udpDest]
            | ok psdPort =>
                cases hstatus : portOf T udp "status_port" with
                | error e =>
                    simp [hudp, hiq, hpsd, hstatus, sameSettings_udpDests]
                | ok statusPort =>
                    simp [hudp, hiq, hpsd, hstatus]
      next hudp =>
        refine iff_of_true (fun _ => SameSettings.refl s) ?_
        rintro ⟨udp, heq, _⟩
        exact hudp udp heq

/-! ## `set_frontend` -/

/-- A `set_frontend` that is refused for its `lna` although it has stored a new attenuator setting. -/
def FrontendSpoils (s : FakeAc920Server) (request : PyDict) : Prop :=
  BadLna T s request ∧
    ∃ value, request.get? "attenuator_db" = some value ∧
      ∃ n, pyInt T value = .ok n ∧ AttenuatorStep n ∧ n ≠ s.frontend.attenuatorDb

theorem keeps_setLnaAndFilter (s s' : FakeAc920Server) (requestId : PyValue) (request : PyDict) :
    Keeps s (setLnaAndFilter T s' requestId request) ↔ (BadLna T s' request → SameSettings s s') := by
  unfold Keeps setLnaAndFilter
  by_cases h : BadLna T s' request
  · simp [h]
  · simp [h]

theorem sameSettings_attenuatorDb (s : FakeAc920Server) (n : Int) :
    SameSettings s { s with frontend := { s.frontend with attenuatorDb := n } } ↔
      n = s.frontend.attenuatorDb := by
  constructor
  · intro h
    exact congrArg Frontend.attenuatorDb h.frontend
  · rintro rfl
    exact SameSettings.refl s

theorem keeps_cmdSetFrontend (s : FakeAc920Server) (requestId : PyValue) (request : PyDict) :
    Keeps s (cmdSetFrontend T s requestId request) ↔ ¬ FrontendSpoils T s request := by
  unfold cmdSetFrontend FrontendSpoils
  cases hvalue : request.get? "attenuator_db" with
  | none =>
      simp [keeps_setLnaAndFilter, SameSettings.refl]
  | some value =>
      cases hn : pyInt T value with
      | error e =>
          simp [hn, Keeps, SameSettings.refl]
      | ok n =>
          by_cases hstep : AttenuatorStep n
          · -- Storing the attenuator does not touch the `lna` that the check falls back on.
            have hlna : BadLna T { s with frontend := { s.frontend with attenuatorDb := n } } request ↔
                BadLna T s request := Iff.rfl
            simp [hn, hstep, keeps_setLnaAndFilter, hlna, sameSettings_attenuatorDb]
          · simp [hn, hstep, Keeps, SameSettings.refl]

/-! ## `set_rx` -/

/-- A `set_rx` for this stream that is refused for a field or for its rate although a field assigned
before has a new value. -/
def RxSpoils (stream : StreamState) (request : PyDict) : Prop :=
  pyBool (request.getD "enable" (.bool stream.enabled)) = true ∧
    ∃ adcChannel, intField T request "adc_channel" stream.adcChannel = .ok adcChannel ∧
      ((∃ e, intField T request "frequency_hz" stream.frequencyHz = .error e ∧ Caught e ∧
          adcChannel ≠ stream.adcChannel) ∨
        ∃ frequencyHz, intField T request "frequency_hz" stream.frequencyHz = .ok frequencyHz ∧
          ((∃ e, intField T request "iq_sample_rate_hz" stream.iqSampleRateHz = .error e ∧ Caught e ∧
              ¬ (adcChannel = stream.adcChannel ∧ frequencyHz = stream.frequencyHz ∧
                strField T request "mode" stream.mode = stream.mode)) ∨
            ∃ rateHz, intField T request "iq_sample_rate_hz" stream.iqSampleRateHz = .ok rateHz ∧
              ((∃ e, intField T request "bandwidth_hz" stream.bandwidthHz = .error e ∧ Caught e ∧
                  ¬ (adcChannel = stream.adcChannel ∧ frequencyHz = stream.frequencyHz ∧
                    strField T request "mode" stream.mode = stream.mode ∧
                    rateHz = stream.iqSampleRateHz)) ∨
                ∃ bandwidthHz, intField T request "bandwidth_hz" stream.bandwidthHz = .ok bandwidthHz ∧
                  supportedRate rateHz = false ∧
                  ¬ (adcChannel = stream.adcChannel ∧ frequencyHz = stream.frequencyHz ∧
                    strField T request "mode" stream.mode = stream.mode ∧
                    rateHz = stream.iqSampleRateHz ∧ bandwidthHz = stream.bandwidthHz))))

theorem sameSettings_setStream (s : FakeAc920Server) (i : Fin 2) (stream : StreamState) :
    SameSettings s (s.setStream i stream) ↔ stream = s.streams i := by
  constructor
  · intro h
    have hi := congrFun h.streams i
    simpa [FakeAc920Server.setStream] using hi
  · rintro rfl
    exact ⟨Function.update_eq_self i s.streams, rfl, rfl, rfl, rfl, rfl, rfl⟩

theorem keeps_setRx (s : FakeAc920Server) (requestId : PyValue) (request : PyDict) (i : Fin 2) :
    Keeps s (setRx T s requestId request i) ↔ ¬ RxSpoils T (s.streams i) request := by
  -- A stream that differs in some fields only is the old one when these fields are the old ones.
  have hsame (stream : StreamState) (a f : Int) (m : PyStr) (r b : Int) :
      { stream with adcChannel := a, frequencyHz := f, mode := m, iqSampleRateHz := r,
                    bandwidthHz := b } = stream ↔
        a = stream.adcChannel ∧ f = stream.frequencyHz ∧ m = stream.mode ∧
          r = stream.iqSampleRateHz ∧ b = stream.bandwidthHz := by
    cases stream
    simp
  unfold setRx RxSpoils
  cases henable : pyBool (request.getD "enable" (.bool (s.streams i).enabled)) with
  | false =>
      simp [henable, Keeps]
  | true =>
      simp only [henable, Bool.not_true, Bool.false_eq_true, if_false, true_and, storeRx, Keeps]
      cases intField T request "adc_channel" (s.streams i).adcChannel with
      | error e =>
          simp [sameSettings_setStream]
      | ok a =>
          cases intField T request "frequency_hz" (s.streams i).frequencyHz with
          | error e =>
              have hkept := hsame (s.streams i) a (s.streams i).frequencyHz (s.streams i).mode
                (s.streams i).iqSampleRateHz (s.streams i).bandwidthHz
              simp [sameSettings_setStream, hkept]
          | ok f =>
              cases intField T request "iq_sample_rate_hz" (s.streams i).iqSampleRateHz with
              | error e =>
                  have hkept := hsame (s.streams i) a f (strField T request "mode" (s.streams i).mode)
                    (s.streams i).iqSampleRateHz (s.streams i).bandwidthHz
                  simp [sameSettings_setStream, hkept]
              | ok r =>
                  cases intField T request "bandwidth_hz" (s.streams i).bandwidthHz with
                  | error e =>
                      have hkept := hsame (s.streams i) a f (strField T request "mode" (s.streams i).mode)
                        r (s.streams i).bandwidthHz
                      simp [sameSettings_setStream, hkept]
                  | ok b =>
                      have hkept := hsame (s.streams i) a f (strField T request "mode" (s.streams i).mode)
                        r b
                      cases hsupported : supportedRate r with
                      | false =>
                          simp [hsupported, sameSettings_setStream, hkept]
                      | true =>
                          simp [hsupported]

theorem keeps_cmdSetRx (s : FakeAc920Server) (requestId : PyValue) (request : PyDict) :
    Keeps s (cmdSetRx T s requestId request) ↔
      ¬ ∃ streamId i, intField T request "stream_id" 0 = .ok streamId ∧
        streamIndex streamId = some i ∧ RxSpoils T (s.streams i) request := by
  unfold cmdSetRx
  cases hid : intField T request "stream_id" 0 with
  | error e =>
      simp [Keeps, SameSettings.refl]
  | ok streamId =>
      cases hi : streamIndex streamId with
      | none =>
          simp [hi, Keeps, SameSettings.refl]
      | some i =>
          simp only [hi, keeps_setRx, Except.ok.injEq]
          refine not_congr ⟨fun h => ⟨streamId, i, rfl, hi, h⟩, ?_⟩
          rintro ⟨_, j, rfl, hj, h⟩
          rw [Option.some.inj (hi.symm.trans hj)]
          exact h

theorem keeps_cmdSetPsd (s : FakeAc920Server) (requestId : PyValue) (request : PyDict) :
    Keeps s (cmdSetPsd T s requestId request) := by
  unfold cmdSetPsd
  split
  · simp [Keeps]
  · split
    · exact fun _ => SameSettings.refl s
    · split
      · exact fun _ => SameSettings.refl s
      · simp [Keeps]

end Commands

/-! ## Every line -/

/-- The line is a request that stores something new and is then refused. -/
def StoresThenRefuses (T : PyTables) (s : FakeAc920Server) (peerIp : PyStr) (line : List UInt8) : Prop :=
  ∃ request cmd,
    (Asks T line request cmd .hello ∧ HelloSpoils T s peerIp request) ∨
      (Asks T line request cmd .setFrontend ∧ FrontendSpoils T s request) ∨
      (Asks T line request cmd .setRx ∧
        ∃ streamId i, intField T request "stream_id" 0 = .ok streamId ∧
          streamIndex streamId = some i ∧ RxSpoils T (s.streams i) request)

/-- The predicates of one command say it all for a line that asks for this command. -/
theorem Asks.storesThenRefuses_iff {T : PyTables} {line : List UInt8} {request : PyDict}
    {cmd : PyStr} {command : Command} (h : Asks T line request cmd command) (s : FakeAc920Server)
    (peerIp : PyStr) :
    StoresThenRefuses T s peerIp line ↔
      (command = .hello ∧ HelloSpoils T s peerIp request) ∨
        (command = .setFrontend ∧ FrontendSpoils T s request) ∨
        (command = .setRx ∧ ∃ streamId i, intField T request "stream_id" 0 = .ok streamId ∧
          streamIndex streamId = some i ∧ RxSpoils T (s.streams i) request) := by
  constructor
  · rintro ⟨request', cmd', ⟨hasks, hspoils⟩ | ⟨hasks, hspoils⟩ | ⟨hasks, hspoils⟩⟩
    · rcases h.unique hasks with ⟨rfl, rfl⟩
      exact .inl ⟨rfl, hspoils⟩
    · rcases h.unique hasks with ⟨rfl, rfl⟩
      exact .inr (.inl ⟨rfl, hspoils⟩)
    · rcases h.unique hasks with ⟨rfl, rfl⟩
      exact .inr (.inr ⟨rfl, hspoils⟩)
  · rintro (⟨rfl, hspoils⟩ | ⟨rfl, hspoils⟩ | ⟨rfl, hspoils⟩)
    · exact ⟨request, cmd, .inl ⟨h, hspoils⟩⟩
    · exact ⟨request, cmd, .inr (.inl ⟨h, hspoils⟩)⟩
    · exact ⟨request, cmd, .inr (.inr ⟨h, hspoils⟩)⟩

theorem refusalKeeps_iff (host : Host) (s : FakeAc920Server) (deviceTimeMs : Int) (peerIp : PyStr)
    (line : List UInt8) :
    RefusalKeeps host s deviceTimeMs peerIp line ↔
      ¬ StoresThenRefuses host.tables s peerIp line := by
  cases dispatched (T := host.tables)
    { config := host.config, deviceTimeMs := deviceTimeMs, peerIp := peerIp } s line with
  | rejected requestId code message hnone hint hid hcode hreply =>
      refine iff_of_true ?_ ?_
      · intro response _ _
        unfold FakeAc920Server.request
        rw [hreply]
        exact SameSettings.refl s
      · rintro ⟨request, cmd, ⟨hasks, _⟩ | ⟨hasks, _⟩ | ⟨hasks, _⟩⟩
        all_goals exact hnone request cmd _ hasks
  | asked request cmd command h =>
      rw [h.refusalKeeps_iff, h.storesThenRefuses_iff]
      cases command with
      | hello =>
          simp [execute, h.commandOf_eq, keeps_cmdHello]
      | setFrontend =>
          simp [execute, h.commandOf_eq, keeps_cmdSetFrontend]
      | setRx =>
          simp only [execute, h.commandOf_eq, keeps_cmdSetRx]
          simp
      | setPsd =>
          simp [execute, h.commandOf_eq, keeps_cmdSetPsd]
      | ping =>
          simp [execute, h.commandOf_eq, Keeps]
      | getStatus =>
          simp [execute, h.commandOf_eq, Keeps, cmdGetStatus]
      | stopAll =>
          simp [execute, h.commandOf_eq, Keeps]
      | unknown =>
          simp [execute, h.commandOf_eq, Keeps, SameSettings.refl]

/-- In every reachable state and for every line, a refusal leaves the settings as they were unless the
line stores something new before it is refused. -/
theorem refusal_keeps_settings_iff (host : Host) (es : List FakeAc920Server.Event)
    (deviceTimeMs : Int) (peerIp : PyStr) (line : List UInt8) :
    RefusalKeeps host (FakeAc920Server.run host es) deviceTimeMs peerIp line ↔
      ¬ StoresThenRefuses host.tables (FakeAc920Server.run host es) peerIp line :=
  refusalKeeps_iff host (FakeAc920Server.run host es) deviceTimeMs peerIp line

/-- A new frequency together with a rate that is not supported. -/
def retuneAtBadRate : List UInt8 :=
  lineOf ("\x7b\"request_id\":1,\"cmd\":\"set_rx\",\"stream_id\":0,\"enable\":true," ++
    "\"frequency_hz\":100000000,\"iq_sample_rate_hz\":1\x7d")

/-- It is refused, and the frequency is the new one. -/
theorem not_refusalKeeps_retuneAtBadRate :
    ¬ ∀ (host : Host) (es : List FakeAc920Server.Event) (deviceTimeMs : Int) (peerIp : PyStr)
      (line : List UInt8),
      RefusalKeeps host (FakeAc920Server.run host es) deviceTimeMs peerIp line := by
  have hrefuted (s : FakeAc920Server) (reply : Reply) (hanswered : reply.2.toOption.isSome = true)
      (hrefused : Refused reply.2)
      (hfrequency : (reply.1.streams 0).frequencyHz ≠ (s.streams 0).frequencyHz) :
      ¬ ∀ response, reply.2 = .ok response → response.get? "ok" = some (.bool false) →
        SameSettings s reply.1 := by
    intro hkeeps
    cases hreply : reply.2 with
    | error e =>
        simp [hreply, Except.toOption] at hanswered
    | ok response =>
        rw [hreply] at hrefused
        exact hfrequency (by rw [(hkeeps response hreply hrefused).streams])
  intro h
  exact hrefuted _ _ (by decide +kernel) (by decide +kernel) (by decide +kernel)
    (h asciiHost [] 0 (py "127.0.0.1") retuneAtBadRate)

end Simulator
end Sdr
