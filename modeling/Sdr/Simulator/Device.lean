import Sdr.Lib.Machine
import Sdr.Simulator.Server

/-!
# Device — the fake device between its requests and its background tasks

Model of the three loops of `FakeAc920Server` and of the way they share the server with the requests.
Everything between two `await`s runs undisturbed, so a run is a list of such pieces: a request line, the
end of the owner's session, or one turn of `_iq_loop`, `_psd_loop` or `_status_loop`.  An exception in a
turn ends its task; the next accepted `set_rx` or `set_psd` starts it again.
-/

namespace Sdr
namespace Simulator

open Lib Protocol

/-- What the server runs on: the interpreter's tables, the command line, the socket and the levels of
the PSD bins.  `sendto` says whether the socket takes a datagram for a destination or raises. -/
structure Host where
  tables : PyTables
  config : FakeAc920Config := {}
  sendto : UdpDest → Bool
  level : Int → Int → Int → Nat → Int := fun _ _ _ _ => 0

/-- A text as the bytes of a line. -/
def lineOf (text : String) : List UInt8 :=
  (py text).flatMap utf8Char

/-- A server on an interpreter that knows ASCII only, with a socket that takes everything. -/
def asciiHost : Host where
  tables := .ascii
  sendto _ := true

namespace FakeAc920Server

variable (host : Host)

/-! ## `_iq_loop` -/

/-- The stream once the flags of its next packet are known. -/
def beginPacket (stream : StreamState) : StreamState :=
  { stream with
    firstPacket := false
    fifoOverflowCount :=
      if host.config.injectFifoOverflow then stream.fifoOverflowCount + 1
      else stream.fifoOverflowCount }

/-- `should_drop`, for a count that has this packet in it. -/
def shouldDrop (iqPacketsSent : Nat) : Bool :=
  decide (0 < host.config.dropEvery) && (iqPacketsSent : Int) % host.config.dropEvery == 0

/-- `_send_iq_packet`.  The numbers of the stream move on only when nothing was raised before. -/
def sendIqPacket (s : FakeAc920Server) (i : Fin 2) :
    FakeAc920Server × Except PyError SdrIqHeader :=
  let stream := s.streams i
  let begun := s.setStream i (beginPacket host stream)
  if stream.iqSampleRateHz = 0 then
    (begun, .error .zeroDivisionError)
  else
    let sent := s.iqPacketsSent + 1
    let header := stream.iqHeader host.config.toIqConfig
    let failed := { begun with iqPacketsSent := sent }
    let next := { s.setStream i (stream.sendIqPacket host.config.toIqConfig).2 with iqPacketsSent := sent }
    match if shouldDrop host sent then none else s.udpDest with
    | none => (next, .ok header)
    | some dest =>
      match header.pack with
      | .error _ => (failed, .error .structError)
      | .ok _ => if host.sendto dest then (next, .ok header) else (failed, .error .osError)

/-- The streams of one turn, in order; an exception ends the turn and the task. -/
def sendIqPackets : FakeAc920Server → List (Fin 2) → FakeAc920Server × List (Fin 2 × SdrIqHeader)
  | s, [] => (s, [])
  | s, i :: rest =>
    match s.sendIqPacket host i with
    | (s, .error _) => ({ s with txRunning := false }, [])
    | (s, .ok header) =>
      let sent := sendIqPackets s rest
      (sent.1, (i, header) :: sent.2)

def active (s : FakeAc920Server) : List (Fin 2) :=
  (List.finRange 2).filter fun i => (s.streams i).enabled

/-- One turn of `_iq_loop`: the server after it and the packets it generated. -/
def iqTurn (s : FakeAc920Server) : FakeAc920Server × List (Fin 2 × SdrIqHeader) :=
  if s.txRunning ∧ s.udpDest.isSome then sendIqPackets host s s.active else (s, [])

/-! ## `_psd_loop` and `_status_loop` -/

/-- How many segments of a frame get out before one cannot be packed or sent. -/
def segmentsSent (s : FakeAc920Server) (dest : UdpDest) (clock : Nat → Int) : Nat :=
  ((List.range s.psd.segmentCount).takeWhile fun i =>
    (s.psd.segmentDatagram host.level (clock i) i).toOption.isSome && host.sendto dest).length

def psdTurn (s : FakeAc920Server) (clock : Nat → Int) : FakeAc920Server :=
  match s.udpPsdDest with
  | some dest =>
    if s.psdRunning ∧ s.psdEnabled then
      let sent := s.segmentsSent host dest clock
      let done := sent == s.psd.segmentCount
      { s with
        psd := if done then s.psd.next else { s.psd with firstFrame := false }
        psdRunning := done
        psdPacketsSent := s.psdPacketsSent + sent }
    else s
  | none => s

def statusTurn (s : FakeAc920Server) : FakeAc920Server :=
  match s.udpStatusDest with
  | some dest =>
    if s.statusRunning then
      { s with statusSeq := s.statusSeq + 1, statusRunning := host.sendto dest }
    else s
  | none => s

/-! ## Runs -/

/-- The `finally` block of the owner's handler. -/
def release (s : FakeAc920Server) : FakeAc920Server :=
  { s.stopAll with udpDest := none, udpPsdDest := none, udpStatusDest := none }

inductive Event
  | line (deviceTimeMs : Int) (peerIp : PyStr) (line : List UInt8)
  | release
  | iqTurn
  | psdTurn (clock : Nat → Int)
  | statusTurn

def request (s : FakeAc920Server) (deviceTimeMs : Int) (peerIp : PyStr) (line : List UInt8) : Reply :=
  dispatch host.tables { config := host.config, deviceTimeMs := deviceTimeMs, peerIp := peerIp } s line

def step (s : FakeAc920Server) : Event → FakeAc920Server
  | .line deviceTimeMs peerIp line => (s.request host deviceTimeMs peerIp line).1
  | .release => s.release
  | .iqTurn => (s.iqTurn host).1
  | .psdTurn clock => s.psdTurn host clock
  | .statusTurn => s.statusTurn host

/-- The server after some events, from its start. -/
def run (es : List Event) : FakeAc920Server :=
  runFrom (step host) {} es

end FakeAc920Server

/-! ## What a turn does to the transmission -/

namespace FakeAc920Server

variable {host : Host}

@[simp] theorem setStream_streams (s : FakeAc920Server) (i j : Fin 2) (stream : StreamState) :
    (s.setStream i stream).streams j = if j = i then stream else s.streams j := by
  simp [setStream, Function.update_apply]

/-- A packet leaves the other stream and the destination alone. -/
theorem sendIqPacket_streams (host : Host) (s : FakeAc920Server) (i : Fin 2) :
    (∀ j, j ≠ i → (s.sendIqPacket host i).1.streams j = s.streams j) ∧
      ((s.sendIqPacket host i).1.streams i = beginPacket host (s.streams i) ∨
        (s.sendIqPacket host i).1.streams i =
          ((s.streams i).sendIqPacket host.config.toIqConfig).2) ∧
      (s.sendIqPacket host i).1.udpDest = s.udpDest ∧
      (s.sendIqPacket host i).1.txRunning = s.txRunning := by
  unfold sendIqPacket
  dsimp only
  repeat' split
  all_goals
    refine ⟨?_, by simp, rfl, rfl⟩
    intro j hj
    simp [hj]

/-- What a packet keeps of a stream, sent or not, a turn keeps. -/
theorem sendIqPackets_streams {R : StreamState → Prop}
    (hbegin : ∀ stream, R stream → R (beginPacket host stream))
    (hsend : ∀ stream, R stream → R (stream.sendIqPacket host.config.toIqConfig).2)
    (s : FakeAc920Server) (is : List (Fin 2)) {j : Fin 2} (h : R (s.streams j)) :
    R ((sendIqPackets host s is).1.streams j) := by
  induction is generalizing s with
  | nil =>
      exact h
  | cons i rest ih =>
      rcases sendIqPacket_streams host s i with ⟨hother, hsame, _⟩
      have hone : R ((s.sendIqPacket host i).1.streams j) := by
        by_cases hj : j = i
        · subst hj
          rcases hsame with hsame | hsame
          · rw [hsame]
            exact hbegin _ h
          · rw [hsame]
            exact hsend _ h
        · rw [hother j hj]
          exact h
      unfold sendIqPackets
      split
      next s' e hs =>
        rw [hs] at hone
        exact hone
      next s' header hs =>
        rw [hs] at hone
        exact ih s' hone

theorem sendIqPackets_udpDest (s : FakeAc920Server) (is : List (Fin 2)) :
    (sendIqPackets host s is).1.udpDest = s.udpDest := by
  induction is generalizing s with
  | nil =>
      rfl
  | cons i rest ih =>
      rcases sendIqPacket_streams host s i with ⟨_, _, hdest, _⟩
      unfold sendIqPackets
      split
      next s' e hs =>
        rw [hs] at hdest
        exact hdest
      next s' header hs =>
        rw [hs] at hdest
        exact (ih s').trans hdest

theorem iqTurn_streams {R : StreamState → Prop}
    (hbegin : ∀ stream, R stream → R (beginPacket host stream))
    (hsend : ∀ stream, R stream → R (stream.sendIqPacket host.config.toIqConfig).2)
    (s : FakeAc920Server) {j : Fin 2} (h : R (s.streams j)) : R ((s.iqTurn host).1.streams j) := by
  unfold iqTurn
  split
  · exact sendIqPackets_streams hbegin hsend s s.active h
  · exact h

theorem iqTurn_udpDest (s : FakeAc920Server) : (s.iqTurn host).1.udpDest = s.udpDest := by
  unfold iqTurn
  split
  · exact sendIqPackets_udpDest s s.active
  · rfl

end FakeAc920Server

/-! ## What `set_rx` does -/

section Rx

variable (T : PyTables)

/-- Where the assignments of `set_rx` end: at the first field that does not convert, or after the last. -/
inductive StoredRx (stream : StreamState) (request : PyDict) : Prop
  | adcChannel (e : PyError)
      (hadc : intField T request "adc_channel" stream.adcChannel = .error e)
      (hstore : storeRx T stream request = (stream, some e))
  | frequencyHz (a : Int) (e : PyError)
      (hadc : intField T request "adc_channel" stream.adcChannel = .ok a)
      (hfrequency : intField T request "frequency_hz" stream.frequencyHz = .error e)
      (hstore : storeRx T stream request = ({ stream with adcChannel := a }, some e))
  | rateHz (a f : Int) (e : PyError)
      (hadc : intField T request "adc_channel" stream.adcChannel = .ok a)
      (hfrequency : intField T request "frequency_hz" stream.frequencyHz = .ok f)
      (hrate : intField T request "iq_sample_rate_hz" stream.iqSampleRateHz = .error e)
      (hstore : storeRx T stream request =
        ({ stream with
            adcChannel := a, frequencyHz := f, mode := strField T request "mode" stream.mode }, some e))
  | bandwidthHz (a f r : Int) (e : PyError)
      (hadc : intField T request "adc_channel" stream.adcChannel = .ok a)
      (hfrequency : intField T request "frequency_hz" stream.frequencyHz = .ok f)
      (hrate : intField T request "iq_sample_rate_hz" stream.iqSampleRateHz = .ok r)
      (hbandwidth : intField T request "bandwidth_hz" stream.bandwidthHz = .error e)
      (hstore : storeRx T stream request =
        ({ stream with
            adcChannel := a, frequencyHz := f, mode := strField T request "mode" stream.mode,
            iqSampleRateHz := r }, some e))
  | all (a f r b : Int)
      (hadc : intField T request "adc_channel" stream.adcChannel = .ok a)
      (hfrequency : intField T request "frequency_hz" stream.frequencyHz = .ok f)
      (hrate : intField T request "iq_sample_rate_hz" stream.iqSampleRateHz = .ok r)
      (hbandwidth : intField T request "bandwidth_hz" stream.bandwidthHz = .ok b)
      (hstore : storeRx T stream request =
        ({ stream with
            adcChannel := a, frequencyHz := f, mode := strField T request "mode" stream.mode,
            iqSampleRateHz := r, bandwidthHz := b }, none))

theorem storedRx (stream : StreamState) (request : PyDict) : StoredRx T stream request := by
  cases hadc : intField T request "adc_channel" stream.adcChannel with
  | error e =>
      exact .adcChannel e hadc (by simp [storeRx, hadc])
  | ok a =>
      cases hfrequency : intField T request "frequency_hz" stream.frequencyHz with
      | error e =>
          exact .frequencyHz a e hadc hfrequency (by simp [storeRx, hadc, hfrequency])
      | ok f =>
          cases hrate : intField T request "iq_sample_rate_hz" stream.iqSampleRateHz with
          | error e =>
              exact .rateHz a f e hadc hfrequency hrate (by simp [storeRx, hadc, hfrequency, hrate])
          | ok r =>
              cases hbandwidth : intField T request "bandwidth_hz" stream.bandwidthHz with
              | error e =>
                  exact .bandwidthHz a f r e hadc hfrequency hrate hbandwidth
                    (by simp [storeRx, hadc, hfrequency, hrate, hbandwidth])
              | ok b =>
                  exact .all a f r b hadc hfrequency hrate hbandwidth
                    (by simp [storeRx, hadc, hfrequency, hrate, hbandwidth])

/-- The fields of a stream that a request does not name. -/
theorem storeRx_keeps (stream : StreamState) (request : PyDict) :
    (storeRx T stream request).1.streamId = stream.streamId ∧
      (storeRx T stream request).1.enabled = stream.enabled ∧
      (storeRx T stream request).1.seq = stream.seq ∧
      (storeRx T stream request).1.adcTimestamp = stream.adcTimestamp ∧
      (storeRx T stream request).1.firstPacket = stream.firstPacket := by
  cases storedRx T stream request
  all_goals
    rename_i hstore
    rw [hstore]
    exact ⟨rfl, rfl, rfl, rfl, rfl⟩

/-- The stream that a `set_rx` is for. -/
def RxTarget (request : PyDict) (i : Fin 2) : Prop :=
  ∃ streamId, intField T request "stream_id" 0 = .ok streamId ∧ streamIndex streamId = some i

/-- The request enables the stream with values that all convert and a rate that is supported. -/
structure RxAccepted (stream : StreamState) (request : PyDict) : Prop where
  enable : pyBool (request.getD "enable" (.bool stream.enabled)) = true
  stored : (storeRx T stream request).2 = none
  rate : supportedRate (storeRx T stream request).1.iqSampleRateHz = true

/-- Everything that a `set_rx` can do. -/
inductive RxEffect (s : FakeAc920Server) (requestId : PyValue) (request : PyDict) : Prop
  | noStream (hnone : ∀ i, ¬ RxTarget T request i)
      (hafter : (cmdSetRx T s requestId request).1 = s)
  | disabled (i : Fin 2) (htarget : RxTarget T request i)
      (hdisable : pyBool (request.getD "enable" (.bool (s.streams i).enabled)) = false)
      (hafter : (cmdSetRx T s requestId request).1 =
        s.setStream i { s.streams i with enabled := false })
  | stored (i : Fin 2) (htarget : RxTarget T request i)
      (henable : pyBool (request.getD "enable" (.bool (s.streams i).enabled)) = true)
      (hrefused : ¬ RxAccepted T (s.streams i) request)
      (hafter : (cmdSetRx T s requestId request).1 =
        s.setStream i (storeRx T (s.streams i) request).1)
  | accepted (i : Fin 2) (htarget : RxTarget T request i)
      (haccepted : RxAccepted T (s.streams i) request)
      (hafter : (cmdSetRx T s requestId request).1 =
        { s.setStream i
            { (storeRx T (s.streams i) request).1 with enabled := true }.resetForEnable with
          txRunning := true })

theorem rxEffect (s : FakeAc920Server) (requestId : PyValue) (request : PyDict) :
    RxEffect T s requestId request := by
  cases hid : intField T request "stream_id" 0 with
  | error e =>
      refine .noStream ?_ (by simp [cmdSetRx, hid])
      rintro i ⟨streamId, hstreamId, _⟩
      simp [hid] at hstreamId
  | ok streamId =>
      cases hi : streamIndex streamId with
      | none =>
          refine .noStream ?_ (by simp [cmdSetRx, hid, hi])
          rintro i ⟨streamId', hstreamId, hindex⟩
          rw [hid, Except.ok.injEq] at hstreamId
          rw [← hstreamId, hi] at hindex
          exact absurd hindex (by simp)
      | some i =>
          have hafter : cmdSetRx T s requestId request = setRx T s requestId request i := by
            simp [cmdSetRx, hid, hi]
          have htarget : RxTarget T request i := ⟨streamId, hid, hi⟩
          cases henable : pyBool (request.getD "enable" (.bool (s.streams i).enabled)) with
          | false =>
              refine .disabled i htarget henable ?_
              simp [hafter, setRx, henable]
          | true =>
              cases hstore : (storeRx T (s.streams i) request).2 with
              | some e =>
                  refine .stored i htarget henable ?_ ?_
                  · intro haccepted
                    simp [haccepted.stored] at hstore
                  · have hpair : storeRx T (s.streams i) request =
                        ((storeRx T (s.streams i) request).1, some e) := Prod.ext rfl hstore
                    rw [hafter, setRx, hpair]
                    simp [henable]
              | none =>
                  have hpair : storeRx T (s.streams i) request =
                      ((storeRx T (s.streams i) request).1, none) := Prod.ext rfl hstore
                  cases hrate : supportedRate (storeRx T (s.streams i) request).1.iqSampleRateHz with
                  | false =>
                      refine .stored i htarget henable ?_ ?_
                      · intro haccepted
                        simp [haccepted.rate] at hrate
                      · rw [hafter, setRx, hpair]
                        simp [henable, hrate]
                  | true =>
                      refine .accepted i htarget ⟨henable, hstore, hrate⟩ ?_
                      rw [hafter, setRx, hpair]
                      simp [henable, hrate]

theorem RxTarget.unique {request : PyDict} {i j : Fin 2} (hi : RxTarget T request i)
    (hj : RxTarget T request j) : i = j := by
  rcases hi with ⟨n, hn, hi⟩
  rcases hj with ⟨m, hm, hj⟩
  rw [hn, Except.ok.injEq] at hm
  rw [hm, hj, Option.some.injEq] at hi
  exact hi.symm

end Rx

/-! ## What a line does to the transmission -/

/-- The part of the server that `_iq_loop` works on. -/
structure SameTransmit (s s' : FakeAc920Server) : Prop where
  streams : s'.streams = s.streams
  udpDest : s'.udpDest = s.udpDest
  txRunning : s'.txRunning = s.txRunning
  iqPacketsSent : s'.iqPacketsSent = s.iqPacketsSent

theorem SameTransmit.refl (s : FakeAc920Server) : SameTransmit s s :=
  ⟨rfl, rfl, rfl, rfl⟩

/-- The destination of the IQ packets after a `hello`. -/
def helloDest (T : PyTables) (s : FakeAc920Server) (request : PyDict) (peerIp : PyStr) :
    Option UdpDest :=
  match request.get? "udp" with
  | some (.dict udp) =>
    match portOf T udp "iq_port" with
    | .ok iqPort =>
      if pyEqInt 1 (request.getD "protocol_version" .none) then
        some (destinationIp T udp peerIp, iqPort)
      else s.udpDest
    | .error _ => s.udpDest
  | _ => s.udpDest

/-- Everything that a line can do to the transmission. -/
inductive LineEffect (host : Host) (s : FakeAc920Server) (deviceTimeMs : Int) (peerIp : PyStr)
    (line : List UInt8) : Prop
  | quiet
      (hother : ∀ request cmd command, Asks host.tables line request cmd command →
        command ≠ .hello ∧ command ≠ .setRx ∧ command ≠ .stopAll)
      (hsame : SameTransmit s (s.request host deviceTimeMs peerIp line).1)
  | stopAll (request : PyDict) (cmd : PyStr) (hasks : Asks host.tables line request cmd .stopAll)
      (hafter : (s.request host deviceTimeMs peerIp line).1 = s.stopAll)
  | hello (request : PyDict) (cmd : PyStr) (hasks : Asks host.tables line request cmd .hello)
      (hstreams : (s.request host deviceTimeMs peerIp line).1.streams = s.streams)
      (hdest : (s.request host deviceTimeMs peerIp line).1.udpDest =
        helloDest host.tables s request peerIp)
      (htx : (s.request host deviceTimeMs peerIp line).1.txRunning = s.txRunning)
      (hsent : (s.request host deviceTimeMs peerIp line).1.iqPacketsSent = s.iqPacketsSent)
  | setRx (request : PyDict) (cmd : PyStr) (hasks : Asks host.tables line request cmd .setRx)
      (hafter : (s.request host deviceTimeMs peerIp line).1 =
        (cmdSetRx host.tables s (request.getD "request_id" .none) request).1)

section Effects

variable (T : PyTables) (s : FakeAc920Server) (requestId : PyValue) (request : PyDict)

theorem sameTransmit_setLnaAndFilter (s' : FakeAc920Server) (h : SameTransmit s s') :
    SameTransmit s (setLnaAndFilter T s' requestId request).1 := by
  unfold setLnaAndFilter
  dsimp only
  split
  · exact h
  · exact ⟨h.streams, h.udpDest, h.txRunning, h.iqPacketsSent⟩

theorem sameTransmit_cmdSetFrontend :
    SameTransmit s (cmdSetFrontend T s requestId request).1 := by
  unfold cmdSetFrontend
  split
  · exact sameTransmit_setLnaAndFilter T s requestId request s (SameTransmit.refl s)
  · split
    · exact SameTransmit.refl s
    · split
      · exact sameTransmit_setLnaAndFilter T s requestId request _ ⟨rfl, rfl, rfl, rfl⟩
      · exact SameTransmit.refl s

theorem sameTransmit_cmdSetPsd : SameTransmit s (cmdSetPsd T s requestId request).1 := by
  unfold cmdSetPsd
  repeat' split
  all_goals exact ⟨rfl, rfl, rfl, rfl⟩

theorem cmdHello_effect (peerIp : PyStr) :
    (cmdHello T s requestId request peerIp).1.streams = s.streams ∧
      (cmdHello T s requestId request peerIp).1.udpDest = helloDest T s request peerIp ∧
      (cmdHello T s requestId request peerIp).1.txRunning = s.txRunning ∧
      (cmdHello T s requestId request peerIp).1.iqPacketsSent = s.iqPacketsSent := by
  unfold cmdHello helloDest
  cases pyEqInt 1 (request.getD "protocol_version" .none) with
  | false =>
      refine ⟨rfl, ?_, rfl, rfl⟩
      simp only [Bool.not_false, if_true, Bool.false_eq_true, if_false]
      repeat' split
      all_goals rfl
  | true =>
      simp only [Bool.not_true, Bool.false_eq_true, if_false, if_true]
      cases request.get? "udp" with
      | none => exact ⟨rfl, rfl, rfl, rfl⟩
      | some value =>
          cases value with
          | dict udp =>
              dsimp only
              cases portOf T udp "iq_port" with
              | error e =>
                  exact ⟨rfl, rfl, rfl, rfl⟩
              | ok iqPort =>
                  cases portOf T udp "psd_port" with
                  | error e =>
                      exact ⟨rfl, rfl, rfl, rfl⟩
                  | ok psdPort =>
                      cases portOf T udp "status_port" with
                      | error e => exact ⟨rfl, rfl, rfl, rfl⟩
                      | ok statusPort => exact ⟨rfl, rfl, rfl, rfl⟩
          | _ => exact ⟨rfl, rfl, rfl, rfl⟩

end Effects

theorem sameTransmit_psdTurn (host : Host) (s : FakeAc920Server) (clock : Nat → Int) :
    SameTransmit s (s.psdTurn host clock) := by
  unfold FakeAc920Server.psdTurn
  repeat' split
  all_goals exact ⟨rfl, rfl, rfl, rfl⟩

theorem sameTransmit_statusTurn (host : Host) (s : FakeAc920Server) :
    SameTransmit s (s.statusTurn host) := by
  unfold FakeAc920Server.statusTurn
  repeat' split
  all_goals exact ⟨rfl, rfl, rfl, rfl⟩

theorem lineEffect (host : Host) (s : FakeAc920Server) (deviceTimeMs : Int) (peerIp : PyStr)
    (line : List UInt8) : LineEffect host s deviceTimeMs peerIp line := by
  cases dispatched (T := host.tables)
    { config := host.config, deviceTimeMs := deviceTimeMs, peerIp := peerIp } s line with
  | rejected requestId code message hnone hint hid hcode hreply =>
      refine .quiet (fun request cmd command h => absurd h (hnone request cmd command)) ?_
      unfold FakeAc920Server.request
      rw [hreply]
      exact SameTransmit.refl s
  | asked request cmd command h =>
      -- A line asks for one command only.
      have hother (hne : command ≠ .hello ∧ command ≠ .setRx ∧ command ≠ .stopAll)
          (request' : PyDict) (cmd' : PyStr) (command' : Command)
          (h' : Asks host.tables line request' cmd' command') :
          command' ≠ .hello ∧ command' ≠ .setRx ∧ command' ≠ .stopAll := by
        rw [← (h.unique h').2]
        exact hne
      have hafter : (s.request host deviceTimeMs peerIp line).1 =
          (execute host.tables
            { config := host.config, deviceTimeMs := deviceTimeMs, peerIp := peerIp } s
            (request.getD "request_id" .none) cmd request).1 := by
        unfold FakeAc920Server.request
        rw [h.dispatch_eq]
      rw [execute, h.commandOf_eq] at hafter
      cases command with
      | hello =>
          rcases cmdHello_effect host.tables s (request.getD "request_id" .none) request peerIp with
            ⟨hstreams, hdest, htx, hsent⟩
          rw [← hafter] at hstreams hdest htx hsent
          exact .hello request cmd h hstreams hdest htx hsent
      | setRx =>
          exact .setRx request cmd h hafter
      | stopAll =>
          exact .stopAll request cmd h hafter
      | setFrontend =>
          refine .quiet (hother (by decide)) ?_
          rw [hafter]
          exact sameTransmit_cmdSetFrontend _ s _ request
      | setPsd =>
          refine .quiet (hother (by decide)) ?_
          rw [hafter]
          exact sameTransmit_cmdSetPsd _ s _ request
      | getStatus =>
          refine .quiet (hother (by decide)) ?_
          rw [hafter]
          exact ⟨rfl, rfl, rfl, rfl⟩
      | ping =>
          refine .quiet (hother (by decide)) ?_
          rw [hafter]
          exact SameTransmit.refl s
      | unknown =>
          refine .quiet (hother (by decide)) ?_
          rw [hafter]
          exact SameTransmit.refl s

end Simulator
end Sdr
