import Sdr.Simulator.Refusals

/-!
# TransmitLoop — which commands can end the transmission

`_send_iq_packet` divides by the rate of the stream and packs its fields into the header of a packet; an
exception there ends `_iq_loop` for good.  `StreamFits` is what a stream needs to be sent, and `SafeStep`
says of a state and of the next event that no enabled stream loses it: the runs in which every step is
safe are exactly those in which all enabled streams can be sent at every moment (`transmitReady_iff_along`).
-/

namespace Sdr
namespace Simulator

open Lib Lib.Struct Protocol

/-! ## Streams that can be sent -/

/-- Every field that goes into the header fits its width. -/
structure StreamFits (stream : StreamState) : Prop where
  rate : supportedRate stream.iqSampleRateHz = true
  decimation_mul_rate : stream.decimation * stream.iqSampleRateHz = 250000000
  streamId : Code.H.Fits stream.streamId
  seq : Code.I.Fits stream.seq
  adcTimestamp : Code.Q.Fits stream.adcTimestamp
  frequencyHz : Code.Q.Fits stream.frequencyHz
  iqSampleRateHz : Code.I.Fits stream.iqSampleRateHz
  bandwidthHz : Code.I.Fits stream.bandwidthHz
  decimation : Code.I.Fits stream.decimation

/-- What holds of every stream, enabled or not, in every run. -/
structure Numbered (i : Fin 2) (stream : StreamState) : Prop where
  streamId : stream.streamId = i.val
  seq : Code.I.Fits stream.seq
  adcTimestamp : Code.Q.Fits stream.adcTimestamp

theorem streamFits_iff {i : Fin 2} {stream : StreamState} (h : Numbered i stream) :
    StreamFits stream ↔
      supportedRate stream.iqSampleRateHz = true ∧ Code.Q.Fits stream.frequencyHz ∧
        Code.I.Fits stream.bandwidthHz := by
  constructor
  · intro hfits
    exact ⟨hfits.rate, hfits.frequencyHz, hfits.bandwidthHz⟩
  · rintro ⟨hrate, hfrequency, hbandwidth⟩
    have hcases : stream.iqSampleRateHz = 125000 ∨ stream.iqSampleRateHz = 250000 ∨
        stream.iqSampleRateHz = 500000 ∨ stream.iqSampleRateHz = 1000000 := by
      simpa [supportedRate, or_assoc] using hrate
    have hdecimation : stream.decimation * stream.iqSampleRateHz = 250000000 ∧
        Code.I.Fits stream.iqSampleRateHz ∧ Code.I.Fits stream.decimation := by
      unfold StreamState.decimation
      rcases hcases with h | h | h | h
      all_goals
        rw [h]
        decide
    have hid : Code.H.Fits stream.streamId := by
      have hi := i.isLt
      rw [h.streamId]
      exact Code.fits_H.2 (by omega)
    exact ⟨hrate, hdecimation.1, hid, h.seq, h.adcTimestamp, hfrequency, hdecimation.2.1,
      hbandwidth, hdecimation.2.2⟩

theorem fits_packetFlags (config : IqConfig) (stream : StreamState) :
    Code.H.Fits (stream.packetFlags config) := by
  unfold StreamState.packetFlags
  cases stream.firstPacket <;> cases config.injectAdcOr <;> cases config.injectFifoOverflow <;> decide

/-- The header of such a stream can be packed. -/
theorem StreamFits.exists_pack {stream : StreamState} (h : StreamFits stream) {config : IqConfig}
    (hcount : Code.H.Fits config.sampleCount) :
    ∃ bytes, (stream.iqHeader config).pack = .ok bytes := by
  have hvalid : (stream.iqHeader config).validate = .ok () := by
    refine validateFields_eq_ok.2 ⟨rfl, rfl, rfl, rfl, rfl, ?_⟩
    exact Int.mul_comm 4 config.sampleCount
  have hpayload : Code.I.Fits (4 * config.sampleCount) := by
    have hbounds := Code.fits_H.1 hcount
    exact Code.fits_I.2 (by omega)
  -- The fields that are the same in every packet.
  have hmagic : Code.I.Fits SDR_IQ_MAGIC := by decide
  have hversion : Code.H.Fits SDR_PROTOCOL_VERSION := by decide
  have hlength : Code.H.Fits IQ_HEADER_SIZE := by decide
  have hframe : Code.H.Fits SDR_FRAME_IQ := by decide
  have hformat : Code.H.Fits SDR_SAMPLE_SC16_LE := by decide
  have hgain : Code.h.Fits 0 := by decide
  have hreserved : Code.Q.Fits 0 := by decide
  have hfits : List.Forall₂ Code.Fits iqStruct (stream.iqHeader config).values :=
    .cons hmagic <| .cons hversion <| .cons hlength <| .cons hframe <|
    .cons h.streamId <| .cons h.seq <| .cons h.adcTimestamp <| .cons h.frequencyHz <|
    .cons h.iqSampleRateHz <| .cons h.bandwidthHz <| .cons hformat <| .cons hcount <|
    .cons (fits_packetFlags config stream) <| .cons hgain <| .cons h.decimation <|
    .cons hpayload <| .cons hreserved .nil
  exact ⟨_, SdrIqHeader.pack_eq_ok.2 ⟨hvalid, Struct.pack_of_fits hfits⟩⟩

/-! ## Servers whose enabled streams can be sent -/

/-- The socket takes datagrams for the destination, once there is one. -/
def DestTaken (host : Host) (dest : Option UdpDest) : Prop :=
  ∀ d, dest = some d → host.sendto d = true

/-- Every enabled stream can be sent. -/
def TransmitReady (host : Host) (s : FakeAc920Server) : Prop :=
  ∀ i, (s.streams i).enabled = true → StreamFits (s.streams i) ∧ DestTaken host s.udpDest

/-- `_send_iq_packet` completes for every enabled stream, with a header whose fields fit. -/
def TransmitSafe (host : Host) (s : FakeAc920Server) : Prop :=
  ∀ i, (s.streams i).enabled = true →
    StreamFits (s.streams i) ∧
      (Code.H.Fits host.config.sampleCount → (s.sendIqPacket host i).2.toOption.isSome = true)

/-- The packet of such a stream is sent, or withheld, and the stream moves on. -/
theorem StreamFits.sendIqPacket_eq {host : Host} {s : FakeAc920Server} {i : Fin 2}
    (h : StreamFits (s.streams i)) (hdest : DestTaken host s.udpDest)
    (hcount : Code.H.Fits host.config.sampleCount) :
    s.sendIqPacket host i =
      ({ s.setStream i ((s.streams i).sendIqPacket host.config.toIqConfig).2 with
          iqPacketsSent := s.iqPacketsSent + 1 },
        .ok ((s.streams i).iqHeader host.config.toIqConfig)) := by
  rcases h.exists_pack hcount with ⟨bytes, hpack⟩
  have hrate : (s.streams i).iqSampleRateHz ≠ 0 := by
    intro hzero
    have hsupported := h.rate
    rw [hzero] at hsupported
    exact absurd hsupported (by decide)
  unfold FakeAc920Server.sendIqPacket
  simp only [if_neg hrate, hpack]
  split
  next => rfl
  next dest hsome =>
    have htaken : host.sendto dest = true := by
      split at hsome
      · exact absurd hsome (by simp)
      · exact hdest dest hsome
    rw [if_pos htaken]

theorem TransmitReady.safe {host : Host} {s : FakeAc920Server} (h : TransmitReady host s) :
    TransmitSafe host s := by
  intro i hi
  rcases h i hi with ⟨hfits, hdest⟩
  refine ⟨hfits, ?_⟩
  intro hcount
  rw [hfits.sendIqPacket_eq hdest hcount]
  rfl

def AllNumbered (s : FakeAc920Server) : Prop :=
  ∀ i, Numbered i (s.streams i)

/-! ## Safe steps -/

/-- A `hello` that stores a destination the socket does not take, while a stream is enabled, is not
safe. -/
def HelloSafe (host : Host) (s : FakeAc920Server) (peerIp : PyStr) (request : PyDict) : Prop :=
  ∀ i, (s.streams i).enabled = true → DestTaken host (helloDest host.tables s request peerIp)

/-- A `set_rx` is safe when every value it stores in an enabled stream fits, up to the field that
raises if there is one, and when the values with which it enables a stream fit. -/
def RxSafe (host : Host) (s : FakeAc920Server) (stream : StreamState) (request : PyDict) : Prop :=
  pyBool (request.getD "enable" (.bool stream.enabled)) = true →
    ∀ adcChannel, intField host.tables request "adc_channel" stream.adcChannel = .ok adcChannel →
    ∀ frequencyHz, intField host.tables request "frequency_hz" stream.frequencyHz = .ok frequencyHz →
      (stream.enabled = true → Code.Q.Fits frequencyHz) ∧
      ∀ rateHz, intField host.tables request "iq_sample_rate_hz" stream.iqSampleRateHz = .ok rateHz →
        (stream.enabled = true → supportedRate rateHz = true) ∧
        ∀ bandwidthHz, intField host.tables request "bandwidth_hz" stream.bandwidthHz = .ok bandwidthHz →
          (stream.enabled = true → Code.I.Fits bandwidthHz) ∧
          (supportedRate rateHz = true →
            Code.Q.Fits frequencyHz ∧ Code.I.Fits bandwidthHz ∧ DestTaken host s.udpDest)

/-- The event does not keep an enabled stream from being sent. -/
def SafeStep (host : Host) (s : FakeAc920Server) : FakeAc920Server.Event → Prop
  | .line _ peerIp line =>
    (∀ request cmd, Asks host.tables line request cmd .hello → HelloSafe host s peerIp request) ∧
      ∀ request cmd, Asks host.tables line request cmd .setRx →
        ∀ i, RxTarget host.tables request i → RxSafe host s (s.streams i) request
  | _ => True

/-! ## One step -/

theorem numbered_sendIqPacket (config : IqConfig) {i : Fin 2} {stream : StreamState}
    (h : Numbered i stream) : Numbered i (stream.sendIqPacket config).2 := by
  refine ⟨h.streamId, Code.fits_I.2 ?_, Code.fits_Q.2 ?_⟩
  · exact ⟨Int.emod_nonneg _ (by decide), Int.emod_lt_of_pos _ (by decide)⟩
  · exact ⟨Int.emod_nonneg _ (by decide), Int.emod_lt_of_pos _ (by decide)⟩

theorem numbered_storeRx (T : PyTables) {i : Fin 2} {stream : StreamState} (h : Numbered i stream)
    (request : PyDict) : Numbered i (storeRx T stream request).1 := by
  rcases storeRx_keeps T stream request with ⟨hid, _, hseq, htimestamp, _⟩
  exact ⟨by rw [hid]; exact h.streamId, by rw [hseq]; exact h.seq, by rw [htimestamp]; exact h.adcTimestamp⟩

theorem numbered_resetForEnable {i : Fin 2} {stream : StreamState} (h : Numbered i stream)
    (enabled : Bool) : Numbered i { stream with enabled := enabled }.resetForEnable := by
  have hseq : Code.I.Fits 0 := by decide
  have htimestamp : Code.Q.Fits 0 := by decide
  exact ⟨h.streamId, hseq, htimestamp⟩

theorem allNumbered_setStream {s : FakeAc920Server} (h : AllNumbered s) {i : Fin 2}
    {stream : StreamState} (hstream : Numbered i stream) : AllNumbered (s.setStream i stream) := by
  intro j
  rw [FakeAc920Server.setStream_streams]
  split
  next hj =>
    rw [hj]
    exact hstream
  next => exact h j

theorem allNumbered_step (host : Host) (s : FakeAc920Server) (e : FakeAc920Server.Event)
    (h : AllNumbered s) : AllNumbered (s.step host e) := by
  have hstopped : AllNumbered s.stopAll := fun i => ⟨(h i).streamId, (h i).seq, (h i).adcTimestamp⟩
  cases e with
  | line deviceTimeMs peerIp line =>
      simp only [FakeAc920Server.step]
      cases lineEffect host s deviceTimeMs peerIp line with
      | quiet hother hsame =>
          intro i
          rw [hsame.streams]
          exact h i
      | stopAll request cmd hasks hafter =>
          rw [hafter]
          exact hstopped
      | hello request cmd hasks hstreams hdest htx hsent =>
          intro i
          rw [hstreams]
          exact h i
      | setRx request cmd hasks hafter =>
          rw [hafter]
          cases rxEffect host.tables s (request.getD "request_id" .none) request with
          | noStream hnone hafter =>
              rw [hafter]
              exact h
          | disabled i htarget hdisable hafter =>
              rw [hafter]
              exact allNumbered_setStream h ⟨(h i).streamId, (h i).seq, (h i).adcTimestamp⟩
          | stored i htarget henable hrefused hafter =>
              rw [hafter]
              exact allNumbered_setStream h (numbered_storeRx host.tables (h i) request)
          | accepted i htarget haccepted hafter =>
              rw [hafter]
              exact allNumbered_setStream h
                (numbered_resetForEnable (numbered_storeRx host.tables (h i) request) true)
  | release =>
      exact hstopped
  | iqTurn =>
      intro i
      exact FakeAc920Server.iqTurn_streams (R := Numbered i)
        (fun stream hstream => ⟨hstream.streamId, hstream.seq, hstream.adcTimestamp⟩)
        (fun stream hstream => numbered_sendIqPacket host.config.toIqConfig hstream) s (h i)
  | psdTurn clock =>
      intro i
      simp only [FakeAc920Server.step, (sameTransmit_psdTurn host s clock).streams]
      exact h i
  | statusTurn =>
      intro i
      simp only [FakeAc920Server.step, (sameTransmit_statusTurn host s).streams]
      exact h i

theorem SameTransmit.ready_iff {host : Host} {s s' : FakeAc920Server} (h : SameTransmit s s') :
    TransmitReady host s' ↔ TransmitReady host s := by
  unfold TransmitReady
  rw [h.streams, h.udpDest]

/-- The other stream is ready anyway. -/
theorem ready_setStream_iff {host : Host} {s : FakeAc920Server} (h : TransmitReady host s)
    (i : Fin 2) (stream : StreamState) :
    TransmitReady host (s.setStream i stream) ↔
      (stream.enabled = true → StreamFits stream ∧ DestTaken host s.udpDest) := by
  constructor
  · intro hready
    have hi := hready i
    rw [FakeAc920Server.setStream_streams, if_pos rfl] at hi
    exact hi
  · intro hstream j
    rw [FakeAc920Server.setStream_streams]
    split
    · exact hstream
    · exact h j

/-- A `set_rx` is safe when the stream can be sent with what has been stored, if it is enabled then. -/
theorem rxSafe_iff {host : Host} {s : FakeAc920Server} {i : Fin 2} {stream : StreamState}
    {request : PyDict} (hnumbered : Numbered i stream)
    (hready : stream.enabled = true → StreamFits stream ∧ DestTaken host s.udpDest)
    (henable : pyBool (request.getD "enable" (.bool stream.enabled)) = true) :
    RxSafe host s stream request ↔
      (stream.enabled = true ∨ RxAccepted host.tables stream request →
        StreamFits (storeRx host.tables stream request).1 ∧ DestTaken host s.udpDest) := by
  have hfits := streamFits_iff (numbered_storeRx host.tables hnumbered request)
  rw [streamFits_iff hnumbered] at hready
  have haccepted : RxAccepted host.tables stream request ↔
      (storeRx host.tables stream request).2 = none ∧
        supportedRate (storeRx host.tables stream request).1.iqSampleRateHz = true :=
    ⟨fun h => ⟨h.stored, h.rate⟩, fun h => ⟨henable, h.1, h.2⟩⟩
  rw [hfits, haccepted]
  unfold RxSafe
  -- The field that raises decides how many of the values have been stored.
  cases storedRx host.tables stream request with
  | adcChannel e hadc hstore =>
      simp only [hadc, hstore, henable]
      simpa using hready
  | frequencyHz a e hadc hfrequency hstore =>
      simp only [hadc, hfrequency, hstore, henable]
      simpa using hready
  | rateHz a f e hadc hfrequency hrate hstore =>
      simp only [hadc, hfrequency, hrate, hstore, henable]
      by_cases henabled : stream.enabled = true
      · rcases hready henabled with ⟨⟨hold, _, hbandwidth⟩, hdest⟩
        simp [henabled, hold, hbandwidth, hdest]
      · simp [henabled]
  | bandwidthHz a f r e hadc hfrequency hrate hbandwidth hstore =>
      simp only [hadc, hfrequency, hrate, hbandwidth, hstore, henable]
      by_cases henabled : stream.enabled = true
      · rcases hready henabled with ⟨⟨_, _, hold⟩, hdest⟩
        simp [henabled, hold, hdest, and_comm]
      · simp [henabled]
  | all a f r b hadc hfrequency hrate hbandwidth hstore =>
      simp only [hadc, hfrequency, hrate, hbandwidth, hstore, henable]
      by_cases henabled : stream.enabled = true
      · rcases hready henabled with ⟨_, hdest⟩
        simp [henabled, hdest]
        grind
      · simp [henabled]
        grind

theorem ready_cmdSetRx_iff {host : Host} {s : FakeAc920Server} (hnumbered : AllNumbered s)
    (h : TransmitReady host s) (requestId : PyValue) (request : PyDict) :
    TransmitReady host (cmdSetRx host.tables s requestId request).1 ↔
      ∀ i, RxTarget host.tables request i → RxSafe host s (s.streams i) request := by
  -- Only the stream that the request is for is looked at.
  have htargeted {i : Fin 2} (htarget : RxTarget host.tables request i) :
      (∀ j, RxTarget host.tables request j → RxSafe host s (s.streams j) request) ↔
        RxSafe host s (s.streams i) request := by
    refine ⟨fun hall => hall i htarget, ?_⟩
    intro hsafe j hj
    rw [hj.unique host.tables htarget]
    exact hsafe
  cases rxEffect host.tables s requestId request with
  | noStream hnone hafter =>
      rw [hafter]
      exact iff_of_true h (fun i hi => absurd hi (hnone i))
  | disabled i htarget hdisable hafter =>
      rw [hafter, htargeted htarget, ready_setStream_iff h]
      simp [RxSafe, hdisable]
  | stored i htarget henable hrefused hafter =>
      rw [hafter, htargeted htarget, ready_setStream_iff h,
        rxSafe_iff (hnumbered i) (h i) henable, (storeRx_keeps host.tables _ request).2.1]
      simp [hrefused]
  | accepted i htarget haccepted hafter =>
      have hstored := numbered_storeRx host.tables (hnumbered i) request
      have hreset : StreamFits
          { (storeRx host.tables (s.streams i) request).1 with enabled := true }.resetForEnable ↔
            StreamFits (storeRx host.tables (s.streams i) request).1 := by
        rw [streamFits_iff hstored, streamFits_iff (numbered_resetForEnable hstored true)]
        rfl
      have hrunning (s' : FakeAc920Server) :
          TransmitReady host { s' with txRunning := true } ↔ TransmitReady host s' := Iff.rfl
      rw [hafter, hrunning, htargeted htarget, ready_setStream_iff h, hreset,
        rxSafe_iff (hnumbered i) (h i) haccepted.enable]
      simp [haccepted, StreamState.resetForEnable]

theorem ready_line_iff {host : Host} {s : FakeAc920Server} (hnumbered : AllNumbered s)
    (h : TransmitReady host s) (deviceTimeMs : Int) (peerIp : PyStr) (line : List UInt8) :
    TransmitReady host (s.request host deviceTimeMs peerIp line).1 ↔
      SafeStep host s (.line deviceTimeMs peerIp line) := by
  unfold SafeStep
  cases lineEffect host s deviceTimeMs peerIp line with
  | quiet hother hsame =>
      refine iff_of_true (hsame.ready_iff.2 h) ⟨?_, ?_⟩
      · intro request cmd hasks
        exact absurd rfl (hother request cmd _ hasks).1
      · intro request cmd hasks
        exact absurd rfl (hother request cmd _ hasks).2.1
  | stopAll request cmd hasks hafter =>
      refine iff_of_true ?_ ⟨?_, ?_⟩
      · rw [hafter]
        intro i hi
        exact absurd hi (by simp [FakeAc920Server.stopAll])
      · intro request' cmd' hasks'
        exact absurd (hasks.unique hasks').2 (by decide)
      · intro request' cmd' hasks'
        exact absurd (hasks.unique hasks').2 (by decide)
  | hello request cmd hasks hstreams hdest htx hsent =>
      unfold TransmitReady
      rw [hstreams, hdest]
      constructor
      · intro hready
        refine ⟨?_, ?_⟩
        · intro request' cmd' hasks' i hi
          rw [← (hasks.unique hasks').1]
          exact (hready i hi).2
        · intro request' cmd' hasks'
          exact absurd (hasks.unique hasks').2 (by decide)
      · rintro ⟨hsafe, _⟩ i hi
        exact ⟨(h i hi).1, hsafe request cmd hasks i hi⟩
  | setRx request cmd hasks hafter =>
      rw [hafter, ready_cmdSetRx_iff hnumbered h]
      constructor
      · intro hsafe
        refine ⟨?_, ?_⟩
        · intro request' cmd' hasks'
          exact absurd (hasks.unique hasks').2 (by decide)
        · intro request' cmd' hasks' i hi
          rw [← (hasks.unique hasks').1] at hi ⊢
          exact hsafe i hi
      · rintro ⟨_, hsafe⟩ i hi
        exact hsafe request cmd hasks i hi

theorem ready_step_iff {host : Host} {s : FakeAc920Server} (hnumbered : AllNumbered s)
    (h : TransmitReady host s) (e : FakeAc920Server.Event) :
    TransmitReady host (s.step host e) ↔ SafeStep host s e := by
  cases e with
  | line deviceTimeMs peerIp line =>
      exact ready_line_iff hnumbered h deviceTimeMs peerIp line
  | release =>
      refine iff_of_true ?_ trivial
      intro i hi
      exact absurd hi (by simp [FakeAc920Server.step, FakeAc920Server.release, FakeAc920Server.stopAll])
  | iqTurn =>
      refine iff_of_true ?_ trivial
      have hfits : ∀ i, Numbered i ((s.iqTurn host).1.streams i) ∧
          (((s.iqTurn host).1.streams i).enabled = true → StreamFits ((s.iqTurn host).1.streams i) ∧
            DestTaken host s.udpDest) := by
        intro i
        refine FakeAc920Server.iqTurn_streams (R := fun stream => Numbered i stream ∧
          (stream.enabled = true → StreamFits stream ∧ DestTaken host s.udpDest)) ?_ ?_ s
          ⟨hnumbered i, h i⟩
        · rintro stream ⟨hstream, hready⟩
          have hbegun : Numbered i (FakeAc920Server.beginPacket host stream) :=
            ⟨hstream.streamId, hstream.seq, hstream.adcTimestamp⟩
          refine ⟨hbegun, ?_⟩
          rw [streamFits_iff hbegun]
          rw [streamFits_iff hstream] at hready
          exact hready
        · rintro stream ⟨hstream, hready⟩
          have hsent := numbered_sendIqPacket host.config.toIqConfig hstream
          refine ⟨hsent, ?_⟩
          rw [streamFits_iff hsent]
          rw [streamFits_iff hstream] at hready
          exact hready
      intro i hi
      simp only [FakeAc920Server.step, FakeAc920Server.iqTurn_udpDest]
      exact (hfits i).2 hi
  | psdTurn clock =>
      exact iff_of_true ((sameTransmit_psdTurn host s clock).ready_iff.2 h) trivial
  | statusTurn =>
      exact iff_of_true ((sameTransmit_statusTurn host s).ready_iff.2 h) trivial

/-! ## Whole runs -/

theorem allNumbered_run (host : Host) (es : List FakeAc920Server.Event) :
    AllNumbered (FakeAc920Server.run host es) := by
  refine runFrom_inductive (fun s e hs => allNumbered_step host s e hs) ?_ es
  have hseq : Code.I.Fits 0 := by decide
  have htimestamp : Code.Q.Fits 0 := by decide
  intro i
  exact ⟨rfl, hseq, htimestamp⟩

theorem transmitReady_iff_along (host : Host) (es : List FakeAc920Server.Event) :
    (∀ done, done <+: es → TransmitReady host (FakeAc920Server.run host done)) ↔
      Along (FakeAc920Server.step host) (SafeStep host) {} es := by
  have hready : TransmitReady host {} := by
    intro i hi
    exact absurd hi (by simp)
  have hstep (s : FakeAc920Server) (e : FakeAc920Server.Event)
      (hs : AllNumbered s ∧ TransmitReady host s) :
      (AllNumbered (FakeAc920Server.step host s e) ∧
        TransmitReady host (FakeAc920Server.step host s e)) ↔ SafeStep host s e := by
    rw [ready_step_iff hs.1 hs.2]
    exact and_iff_right (allNumbered_step host s e hs.1)
  have hiff := forall_prefix_iff_along (P := fun s => AllNumbered s ∧ TransmitReady host s) hstep
    (s := {}) ⟨allNumbered_run host [], hready⟩ es
  rw [← hiff]
  constructor
  · intro h done hdone
    exact ⟨allNumbered_run host done, h done hdone⟩
  · intro h done hdone
    exact (h done hdone).2

/-- The transmission survives the runs whose steps are all safe: at every moment of such a run
`_send_iq_packet` completes for every enabled stream.  In every other run some enabled stream gets
fields that do not fit its header, or a destination that the socket does not take. -/
theorem transmitSafe_of_safe_steps (host : Host) (es : List FakeAc920Server.Event) :
    (Along (FakeAc920Server.step host) (SafeStep host) {} es →
        ∀ done, done <+: es → TransmitSafe host (FakeAc920Server.run host done)) ∧
      ((∀ done, done <+: es → TransmitReady host (FakeAc920Server.run host done)) →
        Along (FakeAc920Server.step host) (SafeStep host) {} es) := by
  refine ⟨?_, (transmitReady_iff_along host es).1⟩
  intro hsafe done hdone
  exact ((transmitReady_iff_along host es).2 hsafe done hdone).safe

def helloLine : List UInt8 :=
  lineOf ("\x7b\"request_id\":1,\"cmd\":\"hello\",\"protocol_version\":1," ++
    "\"udp\":\x7b\"iq_port\":5000,\"psd_port\":5001,\"status_port\":5002\x7d\x7d")

/-- A frequency that has no place in a header. -/
def negativeFrequency : List UInt8 :=
  lineOf ("\x7b\"request_id\":2,\"cmd\":\"set_rx\",\"stream_id\":0,\"enable\":true," ++
    "\"frequency_hz\":-1\x7d")

/-- It is accepted, and the next packet of the stream raises. -/
theorem not_transmitSafe_negativeFrequency :
    ¬ ∀ (host : Host) (es : List FakeAc920Server.Event),
      TransmitSafe host (FakeAc920Server.run host es) := by
  intro h
  have hsafe := h asciiHost
    [.line 0 (py "127.0.0.1") helloLine, .line 0 (py "127.0.0.1") negativeFrequency] 0
    (by decide +kernel)
  exact absurd (hsafe.2 (by decide)) (by decide +kernel)

end Simulator
end Sdr
