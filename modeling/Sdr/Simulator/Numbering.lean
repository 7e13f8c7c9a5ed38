import Sdr.Simulator.TransmitLoop

/-!
# Numbering — the packets of a stream from one `set_rx` to the next

An accepted `set_rx` restarts the numbers of its stream.  Until the next one the stream keeps the
frequency, the rate and the bandwidth of that request, however the two streams' requests, the end of a
session and the turns of `_iq_loop` are interleaved; `AtPacket` says so for the stream itself, and
`stream_numbering` for the packets it generates.
-/

namespace Sdr
namespace Simulator

open Lib Lib.Struct Protocol FakeAc920Server

/-! ## Packets of a stream -/

/-- The packets that an event generates for stream `i`, sent or withheld. -/
def packetsOf (host : Host) (i : Fin 2) (s : FakeAc920Server) : Event → List SdrIqHeader
  | .iqTurn => (((s.iqTurn host).2.filter fun packet => packet.1 == i).map Prod.snd)
  | _ => []

/-- Packet `k` after a `set_rx` with these values. -/
def numberedHeader (config : IqConfig) (i : Fin 2) (frequencyHz rateHz bandwidthHz : Int) (k : Nat) :
    SdrIqHeader where
  streamId := i.val
  seq := (k : Int) % 2 ^ 32
  adcTimestamp := (k * (Int.fdiv 250000000 rateHz * config.sampleCount)) % 2 ^ 64
  frequencyHz := frequencyHz
  iqSampleRateHz := rateHz
  bandwidthHz := bandwidthHz
  sampleCount := config.sampleCount
  flags := StreamState.packetFlags config { streamId := i.val, firstPacket := decide (k = 0) }
  decimation := Int.fdiv 250000000 rateHz
  payloadBytes := 4 * config.sampleCount

/-- The two flags mark packet zero and no other. -/
theorem numberedHeader_flags (config : IqConfig) (i : Fin 2) (f r b : Int) (k : Nat) :
    (Int.land (numberedHeader config i f r b k).flags SDR_IQ_FLAG_DISCONTINUITY ≠ 0 ↔ k = 0) ∧
      (Int.land (numberedHeader config i f r b k).flags SDR_IQ_FLAG_CONFIG_CHANGED ≠ 0 ↔ k = 0) := by
  simp only [numberedHeader, StreamState.packetFlags]
  by_cases hk : k = 0
  · simp only [hk, decide_true, if_true]
    cases config.injectAdcOr <;> cases config.injectFifoOverflow <;> decide
  · simp only [hk, decide_false]
    cases config.injectAdcOr <;> cases config.injectFifoOverflow <;> decide

/-- The stream is about to generate packet `k`. -/
structure AtPacket (config : IqConfig) (i : Fin 2) (f r b : Int) (k : Nat) (stream : StreamState) :
    Prop where
  streamId : stream.streamId = i.val
  frequencyHz : stream.frequencyHz = f
  iqSampleRateHz : stream.iqSampleRateHz = r
  bandwidthHz : stream.bandwidthHz = b
  seq : stream.seq = (k : Int) % 2 ^ 32
  adcTimestamp : stream.adcTimestamp = (k * (Int.fdiv 250000000 r * config.sampleCount)) % 2 ^ 64
  firstPacket : stream.firstPacket = decide (k = 0)

namespace AtPacket

variable {config : IqConfig} {i : Fin 2} {f r b : Int} {k : Nat} {stream : StreamState}

theorem iqHeader_eq (h : AtPacket config i f r b k stream) :
    stream.iqHeader config = numberedHeader config i f r b k := by
  simp [StreamState.iqHeader, numberedHeader, StreamState.packetFlags, StreamState.decimation,
    h.streamId, h.frequencyHz, h.iqSampleRateHz, h.bandwidthHz, h.seq, h.adcTimestamp, h.firstPacket]

theorem next (h : AtPacket config i f r b k stream) :
    AtPacket config i f r b (k + 1) (stream.sendIqPacket config).2 := by
  refine ⟨h.streamId, h.frequencyHz, h.iqSampleRateHz, h.bandwidthHz, ?_, ?_, ?_⟩
  · simp only [StreamState.sendIqPacket, h.seq]
    rw [Int.emod_add_emod]
    simp
  · simp only [StreamState.sendIqPacket, h.iqHeader_eq, h.adcTimestamp, numberedHeader,
      SdrIqHeader.nextTimestampDelta]
    rw [Int.emod_add_emod]
    congr 1
    push_cast
    ring
  · simp [StreamState.sendIqPacket]

theorem disabled (h : AtPacket config i f r b k stream) (enabled : Bool) :
    AtPacket config i f r b k { stream with enabled := enabled } :=
  ⟨h.streamId, h.frequencyHz, h.iqSampleRateHz, h.bandwidthHz, h.seq, h.adcTimestamp, h.firstPacket⟩

theorem streamFits (h : AtPacket config i f r b k stream) (hrate : supportedRate r = true)
    (hf : Code.Q.Fits f) (hb : Code.I.Fits b) : StreamFits stream := by
  have hnumbered : Numbered i stream := by
    refine ⟨h.streamId, ?_, ?_⟩
    · rw [h.seq]
      exact Code.fits_I.2 ⟨Int.emod_nonneg _ (by decide), Int.emod_lt_of_pos _ (by decide)⟩
    · rw [h.adcTimestamp]
      exact Code.fits_Q.2 ⟨Int.emod_nonneg _ (by decide), Int.emod_lt_of_pos _ (by decide)⟩
  rw [streamFits_iff hnumbered, h.iqSampleRateHz, h.frequencyHz, h.bandwidthHz]
  exact ⟨hrate, hf, hb⟩

end AtPacket

/-! ## One turn -/

section Turn

variable {host : Host} {i : Fin 2}

/-- A turn over the other streams. -/
theorem sendIqPackets_other (host : Host) (is : List (Fin 2)) (hi : i ∉ is)
    (s : FakeAc920Server) :
    (sendIqPackets host s is).1.streams i = s.streams i ∧
      ((sendIqPackets host s is).2.filter fun packet => packet.1 == i) = [] := by
  induction is generalizing s with
  | nil =>
      exact ⟨rfl, rfl⟩
  | cons j rest ih =>
      rw [List.mem_cons, not_or] at hi
      have hstream := (sendIqPacket_streams host s j).1 i hi.1
      unfold sendIqPackets
      split
      next s' e hs =>
        rw [hs] at hstream
        exact ⟨hstream, rfl⟩
      next s' header hs =>
        rw [hs] at hstream
        rcases ih hi.2 s' with ⟨hrest, hfilter⟩
        refine ⟨hrest.trans hstream, ?_⟩
        simpa [Ne.symm hi.1] using hfilter

/-- A turn that can send stream `i` sends one packet of it, or none when it ends before. -/
theorem sendIqPackets_one (hcount : Code.H.Fits host.config.sampleCount) (is : List (Fin 2))
    (hnodup : is.Nodup) (s : FakeAc920Server) (hfits : StreamFits (s.streams i))
    (hdest : DestTaken host s.udpDest) :
    ((sendIqPackets host s is).1.streams i = s.streams i ∧
        ((sendIqPackets host s is).2.filter fun packet => packet.1 == i) = []) ∨
      ((sendIqPackets host s is).1.streams i =
          ((s.streams i).sendIqPacket host.config.toIqConfig).2 ∧
        ((sendIqPackets host s is).2.filter fun packet => packet.1 == i) =
          [(i, (s.streams i).iqHeader host.config.toIqConfig)]) := by
  induction is generalizing s with
  | nil =>
      exact .inl ⟨rfl, rfl⟩
  | cons j rest ih =>
      rw [List.nodup_cons] at hnodup
      by_cases hj : j = i
      · subst hj
        have hsend := hfits.sendIqPacket_eq hdest hcount
        unfold sendIqPackets
        rw [hsend]
        dsimp only
        -- The rest of the turn is about the other stream.
        rcases sendIqPackets_other host rest hnodup.1
          { s.setStream j ((s.streams j).sendIqPacket host.config.toIqConfig).2 with
            iqPacketsSent := s.iqPacketsSent + 1 } with ⟨hrest, hfilter⟩
        refine .inr ⟨hrest.trans (by simp [setStream]), ?_⟩
        simpa using hfilter
      · rcases sendIqPacket_streams host s j with ⟨hother, _, hudp, _⟩
        have hstream := hother i (Ne.symm hj)
        unfold sendIqPackets
        split
        next s' e hs =>
          rw [hs] at hstream
          exact .inl ⟨hstream, rfl⟩
        next s' header hs =>
          rw [hs] at hstream hudp
          have hrest := ih hnodup.2 s' (by rw [hstream]; exact hfits) (by rw [hudp]; exact hdest)
          rw [hstream] at hrest
          simpa [hj] using hrest

theorem iqTurn_one (hcount : Code.H.Fits host.config.sampleCount) (s : FakeAc920Server)
    (hfits : StreamFits (s.streams i)) (hdest : DestTaken host s.udpDest) :
    ((s.iqTurn host).1.streams i = s.streams i ∧ packetsOf host i s .iqTurn = []) ∨
      ((s.iqTurn host).1.streams i = ((s.streams i).sendIqPacket host.config.toIqConfig).2 ∧
        packetsOf host i s .iqTurn = [(s.streams i).iqHeader host.config.toIqConfig]) := by
  have hnodup : s.active.Nodup := (List.nodup_finRange 2).filter _
  unfold packetsOf iqTurn
  split
  · rcases sendIqPackets_one hcount s.active hnodup s hfits hdest with ⟨hstream, hfilter⟩ | ⟨hstream, hfilter⟩
    · exact .inl ⟨hstream, by rw [hfilter]; rfl⟩
    · exact .inr ⟨hstream, by rw [hfilter]; rfl⟩
  · exact .inl ⟨rfl, rfl⟩

end Turn

/-! ## From one `set_rx` to the next -/

/-- The events between two accepted requests for stream `i`: a further request for it disables it, and
the socket takes the packets. -/
def EpochStep (host : Host) (i : Fin 2) (s : FakeAc920Server) : Event → Prop
  | .line _ _ line => ∀ request cmd, Asks host.tables line request cmd .setRx →
      RxTarget host.tables request i →
      pyBool (request.getD "enable" (.bool (s.streams i).enabled)) = false
  | .iqTurn => DestTaken host s.udpDest
  | _ => True

section Epoch

variable {host : Host} {i : Fin 2} {f r b : Int} {k : Nat} {s : FakeAc920Server}

/-- A line of the epoch can only disable the stream. -/
theorem atPacket_line (h : AtPacket host.config.toIqConfig i f r b k (s.streams i))
    {deviceTimeMs : Int} {peerIp : PyStr} {line : List UInt8}
    (hstep : EpochStep host i s (.line deviceTimeMs peerIp line)) :
    AtPacket host.config.toIqConfig i f r b k
      ((s.request host deviceTimeMs peerIp line).1.streams i) := by
  cases lineEffect host s deviceTimeMs peerIp line with
  | quiet hother hsame =>
      rw [hsame.streams]
      exact h
  | stopAll request cmd hasks hafter =>
      rw [hafter]
      exact h.disabled false
  | hello request cmd hasks hstreams hdest htx hsent =>
      rw [hstreams]
      exact h
  | setRx request cmd hasks hafter =>
      rw [hafter]
      -- A request for the other stream is as good as none.
      have hother {j : Fin 2} (hj : j ≠ i) (stream : StreamState) (s' : FakeAc920Server)
          (hs' : s'.streams = (s.setStream j stream).streams) :
          AtPacket host.config.toIqConfig i f r b k (s'.streams i) := by
        rw [hs', setStream_streams, if_neg (Ne.symm hj)]
        exact h
      cases rxEffect host.tables s (request.getD "request_id" .none) request with
      | noStream hnone hafter =>
          rw [hafter]
          exact h
      | disabled j htarget hdisable hafter =>
          rw [hafter]
          by_cases hj : j = i
          · subst hj
            rw [setStream_streams, if_pos rfl]
            exact h.disabled false
          · exact hother hj _ _ rfl
      | stored j htarget henable hrefused hafter =>
          rw [hafter]
          by_cases hj : j = i
          · subst hj
            rw [hstep request cmd hasks htarget] at henable
            exact absurd henable (by decide)
          · exact hother hj _ _ rfl
      | accepted j htarget haccepted hafter =>
          rw [hafter]
          by_cases hj : j = i
          · subst hj
            have henable := haccepted.enable
            rw [hstep request cmd hasks htarget] at henable
            exact absurd henable (by decide)
          · exact hother hj _ _ rfl

/-- One event of the epoch: the stream stays where it is, or its next packet is generated. -/
theorem atPacket_step (hcount : Code.H.Fits host.config.sampleCount) (hrate : supportedRate r = true)
    (hf : Code.Q.Fits f) (hb : Code.I.Fits b)
    (h : AtPacket host.config.toIqConfig i f r b k (s.streams i)) {e : Event}
    (hstep : EpochStep host i s e) :
    (AtPacket host.config.toIqConfig i f r b k ((s.step host e).streams i) ∧
        packetsOf host i s e = []) ∨
      (AtPacket host.config.toIqConfig i f r b (k + 1) ((s.step host e).streams i) ∧
        packetsOf host i s e = [numberedHeader host.config.toIqConfig i f r b k]) := by
  cases e with
  | line deviceTimeMs peerIp line =>
      exact .inl ⟨atPacket_line h hstep, rfl⟩
  | release =>
      exact .inl ⟨h.disabled false, rfl⟩
  | iqTurn =>
      rcases iqTurn_one hcount s (h.streamFits hrate hf hb) hstep with ⟨hstream, hpackets⟩ | ⟨hstream, hpackets⟩
      · refine .inl ⟨?_, hpackets⟩
        simp only [FakeAc920Server.step, hstream]
        exact h
      · refine .inr ⟨?_, ?_⟩
        · simp only [FakeAc920Server.step, hstream]
          exact h.next
        · rw [hpackets, h.iqHeader_eq]
  | psdTurn clock =>
      refine .inl ⟨?_, rfl⟩
      simp only [FakeAc920Server.step, (sameTransmit_psdTurn host s clock).streams]
      exact h
  | statusTurn =>
      refine .inl ⟨?_, rfl⟩
      simp only [FakeAc920Server.step, (sameTransmit_statusTurn host s).streams]
      exact h

theorem atPacket_run (hcount : Code.H.Fits host.config.sampleCount) (hrate : supportedRate r = true)
    (hf : Code.Q.Fits f) (hb : Code.I.Fits b)
    (h : AtPacket host.config.toIqConfig i f r b 0 (s.streams i)) (es : List Event)
    (hes : Along (FakeAc920Server.step host) (EpochStep host i) s es) :
    ∃ n, AtPacket host.config.toIqConfig i f r b n
        ((runFrom (FakeAc920Server.step host) s es).streams i) ∧
      emits (FakeAc920Server.step host) (packetsOf host i) s es =
        (List.range n).map (numberedHeader host.config.toIqConfig i f r b) := by
  refine history_invariant (C := EpochStep host i)
    (P := fun es s' => ∃ n, AtPacket host.config.toIqConfig i f r b n (s'.streams i) ∧
      emits (FakeAc920Server.step host) (packetsOf host i) s es =
        (List.range n).map (numberedHeader host.config.toIqConfig i f r b)) ⟨0, h, rfl⟩ ?_ es hes
  rintro es e ⟨n, hat, hpackets⟩ hstep
  rw [emits_snoc, hpackets]
  rcases atPacket_step hcount hrate hf hb hat hstep with ⟨hnext, hout⟩ | ⟨hnext, hout⟩
  · exact ⟨n, hnext, by rw [hout, List.append_nil]⟩
  · exact ⟨n + 1, hnext, by rw [hout, List.range_succ, List.map_append]; rfl⟩

/-- An accepted request puts its stream before packet zero. -/
theorem atPacket_accepted (deviceTimeMs : Int) (peerIp : PyStr) {line : List UInt8}
    {request : PyDict} {cmd : PyStr} (hnumbered : AllNumbered s)
    (hasks : Asks host.tables line request cmd .setRx) (htarget : RxTarget host.tables request i)
    (haccepted : RxAccepted host.tables (s.streams i) request)
    (hf : intField host.tables request "frequency_hz" (s.streams i).frequencyHz = .ok f)
    (hr : intField host.tables request "iq_sample_rate_hz" (s.streams i).iqSampleRateHz = .ok r)
    (hb : intField host.tables request "bandwidth_hz" (s.streams i).bandwidthHz = .ok b) :
    AtPacket host.config.toIqConfig i f r b 0
        ((s.request host deviceTimeMs peerIp line).1.streams i) ∧
      (s.request host deviceTimeMs peerIp line).1.txRunning = true ∧ supportedRate r = true := by
  have hafter : (s.request host deviceTimeMs peerIp line).1 =
      { s.setStream i
          { (storeRx host.tables (s.streams i) request).1 with enabled := true }.resetForEnable with
        txRunning := true } := by
    unfold FakeAc920Server.request
    rw [hasks.dispatch_eq, execute, hasks.commandOf_eq]
    cases rxEffect host.tables s (request.getD "request_id" .none) request with
    | noStream hnone hafter =>
        exact absurd htarget (hnone i)
    | disabled j hj hdisable hafter =>
        rw [hj.unique host.tables htarget, haccepted.enable] at hdisable
        exact absurd hdisable (by decide)
    | stored j hj henable hrefused hafter =>
        rw [hj.unique host.tables htarget] at hrefused
        exact absurd haccepted hrefused
    | accepted j hj _ hafter =>
        rw [hj.unique host.tables htarget] at hafter
        exact hafter
  have hrate := haccepted.rate
  have hstored := haccepted.stored
  rw [hafter]
  -- Nothing raised, so all the values were stored.
  cases storedRx host.tables (s.streams i) request with
  | adcChannel e _ hstore =>
      simp [hstore] at hstored
  | frequencyHz a e _ _ hstore =>
      simp [hstore] at hstored
  | rateHz a f' e _ _ _ hstore =>
      simp [hstore] at hstored
  | bandwidthHz a f' r' e _ _ _ _ hstore =>
      simp [hstore] at hstored
  | all a f' r' b' hadc hfrequency hrate' hbandwidth hstore =>
      rw [hf, Except.ok.injEq] at hfrequency
      rw [hr, Except.ok.injEq] at hrate'
      rw [hb, Except.ok.injEq] at hbandwidth
      rw [hstore] at hrate ⊢
      subst hfrequency hrate' hbandwidth
      refine ⟨?_, rfl, hrate⟩
      simp only [setStream, Function.update_self, StreamState.resetForEnable]
      exact ⟨(hnumbered i).streamId, rfl, rfl, rfl, rfl, by simp, rfl⟩

end Epoch

/-! ## The other stream's requests -/

/-- The line is a `set_rx` for stream `j`. -/
def addressedTo (T : PyTables) (j : Fin 2) : Event → Bool
  | .line _ _ line =>
    match decodeJsonLine T line with
    | none => false
    | some request =>
      isInt (request.getD "request_id" .none) &&
        (match request.get? "cmd" with
          | some (.str cmd) => decide (commandOf cmd = .setRx)
          | _ => false) &&
        (match intField T request "stream_id" 0 with
          | .ok streamId => decide (streamIndex streamId = some j)
          | .error _ => false)
  | _ => false

theorem addressedTo_line {T : PyTables} {j : Fin 2} {deviceTimeMs : Int} {peerIp : PyStr}
    {line : List UInt8} :
    addressedTo T j (.line deviceTimeMs peerIp line) = true ↔
      ∃ request cmd, Asks T line request cmd .setRx ∧ RxTarget T request j := by
  constructor
  · intro h
    simp only [addressedTo] at h
    split at h
    next => exact absurd h (by simp)
    next request hdecode =>
      rw [Bool.and_eq_true, Bool.and_eq_true] at h
      rcases h with ⟨⟨hid, hcmd⟩, hstream⟩
      split at hcmd
      next cmd hget =>
        split at hstream
        next streamId hint =>
          exact ⟨request, cmd, ⟨hdecode, hid, hget, of_decide_eq_true hcmd⟩, streamId, hint,
            of_decide_eq_true hstream⟩
        next => exact absurd hstream (by simp)
      next => exact absurd hcmd (by simp)
  · rintro ⟨request, cmd, hasks, streamId, hint, hindex⟩
    simp [addressedTo, hasks.decoded, hasks.isInt_requestId, hasks.get?_cmd, hasks.commandOf_eq, hint,
      hindex]

/-- The packets of all enabled streams can be sent in a turn. -/
def Undisturbed (host : Host) (s : FakeAc920Server) (e : Event) : Prop :=
  e = .iqTurn → TransmitReady host s

/-- What the packets of stream `i` depend on, while the loop runs. -/
structure SameStream (i : Fin 2) (s s' : FakeAc920Server) : Prop where
  stream : s.streams i = s'.streams i
  udpDest : s.udpDest = s'.udpDest
  running : s.txRunning = true
  running' : s'.txRunning = true

section Independence

variable {host : Host} {i : Fin 2}

theorem sendIqPackets_ready (hcount : Code.H.Fits host.config.sampleCount) (is : List (Fin 2))
    (hnodup : is.Nodup) (s : FakeAc920Server) (hfits : ∀ j ∈ is, StreamFits (s.streams j))
    (hdest : DestTaken host s.udpDest) :
    (sendIqPackets host s is).1.txRunning = s.txRunning ∧
      (i ∈ is →
        (sendIqPackets host s is).1.streams i =
            ((s.streams i).sendIqPacket host.config.toIqConfig).2 ∧
          ((sendIqPackets host s is).2.filter fun packet => packet.1 == i) =
            [(i, (s.streams i).iqHeader host.config.toIqConfig)]) := by
  induction is generalizing s with
  | nil =>
      exact ⟨rfl, fun h => absurd h (by simp)⟩
  | cons j rest ih =>
      rw [List.nodup_cons] at hnodup
      have hsend := (hfits j (by simp)).sendIqPacket_eq hdest hcount
      let s' : FakeAc920Server :=
        { s.setStream j ((s.streams j).sendIqPacket host.config.toIqConfig).2 with
          iqPacketsSent := s.iqPacketsSent + 1 }
      have hkept {l : Fin 2} (hl : l ≠ j) : s'.streams l = s.streams l := by
        have hset := setStream_streams s j l ((s.streams j).sendIqPacket host.config.toIqConfig).2
        rw [if_neg hl] at hset
        exact hset
      have hrest : ∀ l ∈ rest, StreamFits (s'.streams l) := by
        intro l hl
        rw [hkept (fun heq => hnodup.1 (heq ▸ hl))]
        exact hfits l (by simp [hl])
      unfold sendIqPackets
      rw [hsend]
      dsimp only
      rcases ih hnodup.2 s' hrest hdest with ⟨htx, hturn⟩
      refine ⟨htx, ?_⟩
      intro hi
      by_cases hj : i = j
      · subst hj
        rcases sendIqPackets_other host rest hnodup.1 s' with ⟨hstream, hfilter⟩
        refine ⟨hstream.trans ?_, ?_⟩
        · have hset := setStream_streams s i i ((s.streams i).sendIqPacket host.config.toIqConfig).2
          rw [if_pos rfl] at hset
          exact hset
        · rw [List.filter_cons_of_pos (by simp), hfilter]
      · have hmem : i ∈ rest := by
          rcases List.mem_cons.1 hi with h | h
          · exact absurd h hj
          · exact h
        rcases hturn hmem with ⟨hstream, hfilter⟩
        rw [hkept hj] at hstream hfilter
        refine ⟨hstream, ?_⟩
        rw [List.filter_cons_of_neg (by simpa using Ne.symm hj)]
        exact hfilter

/-- A turn in which everything can be sent sees of the server only what `SameStream` compares. -/
theorem iqTurn_ready (hcount : Code.H.Fits host.config.sampleCount) {s : FakeAc920Server}
    (hrunning : s.txRunning = true) (hready : TransmitReady host s) :
    (s.iqTurn host).1.txRunning = true ∧
      if (s.streams i).enabled = true ∧ s.udpDest.isSome = true then
        (s.iqTurn host).1.streams i = ((s.streams i).sendIqPacket host.config.toIqConfig).2 ∧
          packetsOf host i s .iqTurn = [(s.streams i).iqHeader host.config.toIqConfig]
      else (s.iqTurn host).1.streams i = s.streams i ∧ packetsOf host i s .iqTurn = [] := by
  have hnodup : s.active.Nodup := (List.nodup_finRange 2).filter _
  have hmem {j : Fin 2} : j ∈ s.active ↔ (s.streams j).enabled = true := by
    simp [active]
  have hfits : ∀ j ∈ s.active, StreamFits (s.streams j) := fun j hj => (hready j (hmem.1 hj)).1
  unfold packetsOf iqTurn
  by_cases hdest : s.udpDest.isSome = true
  · simp only [hrunning, hdest, and_self, if_true, and_true]
    -- A turn without an enabled stream does nothing.
    by_cases hany : ∃ j, (s.streams j).enabled = true
    · rcases hany with ⟨j, hj⟩
      rcases sendIqPackets_ready (i := i) hcount s.active hnodup s hfits (hready j hj).2 with
        ⟨htx, hturn⟩
      refine ⟨htx.trans hrunning, ?_⟩
      split
      next hi =>
        rcases hturn (hmem.2 hi) with ⟨hstream, hfilter⟩
        exact ⟨hstream, by rw [hfilter]; rfl⟩
      next hi =>
        rcases sendIqPackets_other host s.active (fun h => hi (hmem.1 h)) s with
          ⟨hstream, hfilter⟩
        exact ⟨hstream, by rw [hfilter]; rfl⟩
    · have hempty : s.active = [] := by
        rw [List.eq_nil_iff_forall_not_mem]
        intro j hj
        exact hany ⟨j, hmem.1 hj⟩
      have hi : ¬ (s.streams i).enabled = true := fun h => hany ⟨i, h⟩
      rw [if_neg hi, hempty]
      exact ⟨hrunning, rfl, rfl⟩
  · simp only [hdest, Bool.false_eq_true, and_false, if_false]
    exact ⟨hrunning, trivial, rfl⟩

/-- A request for the other stream changes nothing that the packets of this one depend on. -/
theorem sameStream_addressed {s s' : FakeAc920Server} (h : SameStream i s s') {j : Fin 2}
    (hj : j ≠ i) {e : Event} (he : addressedTo host.tables j e = true) :
    SameStream i (s.step host e) s' ∧ packetsOf host i s e = [] := by
  cases e with
  | line deviceTimeMs peerIp line =>
      refine ⟨?_, rfl⟩
      rcases addressedTo_line.1 he with ⟨request, cmd, hasks, htarget⟩
      have hset (stream : StreamState) : (s.setStream j stream).streams i = s'.streams i := by
        rw [setStream_streams, if_neg (Ne.symm hj)]
        exact h.stream
      simp only [FakeAc920Server.step, FakeAc920Server.request]
      rw [hasks.dispatch_eq, execute, hasks.commandOf_eq]
      dsimp only
      cases rxEffect host.tables s (request.getD "request_id" .none) request with
      | noStream hnone hafter =>
          rw [hafter]
          exact h
      | disabled l htarget' hdisable hafter =>
          rw [hafter, htarget'.unique host.tables htarget]
          exact ⟨hset _, h.udpDest, h.running, h.running'⟩
      | stored l htarget' henable hrefused hafter =>
          rw [hafter, htarget'.unique host.tables htarget]
          exact ⟨hset _, h.udpDest, h.running, h.running'⟩
      | accepted l htarget' haccepted hafter =>
          rw [hafter, htarget'.unique host.tables htarget]
          exact ⟨hset _, h.udpDest, rfl, h.running'⟩
  | release => exact absurd he (by simp [addressedTo])
  | iqTurn => exact absurd he (by simp [addressedTo])
  | psdTurn clock => exact absurd he (by simp [addressedTo])
  | statusTurn => exact absurd he (by simp [addressedTo])

/-- A `set_rx` depends on the stream it is for alone. -/
theorem sameStream_setRx {s s' : FakeAc920Server} (h : SameStream i s s') (T : PyTables)
    (requestId : PyValue) (request : PyDict) :
    SameStream i (setRx T s requestId request i).1 (setRx T s' requestId request i).1 := by
  have hset (stream : StreamState) :
      (s.setStream i stream).streams i = (s'.setStream i stream).streams i := by
    rw [setStream_streams, setStream_streams, if_pos rfl, if_pos rfl]
  unfold setRx
  rw [h.stream]
  dsimp only
  split
  · exact ⟨hset _, h.udpDest, h.running, h.running'⟩
  · split
    · exact ⟨hset _, h.udpDest, h.running, h.running'⟩
    · split
      · exact ⟨hset _, h.udpDest, rfl, rfl⟩
      · exact ⟨hset _, h.udpDest, h.running, h.running'⟩

theorem sameStream_cmdSetRx {s s' : FakeAc920Server} (h : SameStream i s s') (T : PyTables)
    {request : PyDict} (hother : ∀ j, RxTarget T request j → j = i) (requestId : PyValue) :
    SameStream i (cmdSetRx T s requestId request).1 (cmdSetRx T s' requestId request).1 := by
  unfold cmdSetRx
  split
  next => exact h
  next streamId hid =>
    split
    next => exact h
    next j hj =>
      rw [hother j ⟨streamId, hid, hj⟩]
      exact sameStream_setRx h T requestId request

theorem sameStream_line {s s' : FakeAc920Server} (h : SameStream i s s') {deviceTimeMs : Int}
    {peerIp : PyStr} {line : List UInt8}
    (he : ∀ j, j ≠ i → addressedTo host.tables j (.line deviceTimeMs peerIp line) = false) :
    SameStream i (s.request host deviceTimeMs peerIp line).1
      (s'.request host deviceTimeMs peerIp line).1 := by
  cases lineEffect host s deviceTimeMs peerIp line with
  | quiet hother hsame =>
      cases lineEffect host s' deviceTimeMs peerIp line with
      | quiet _ hsame' =>
          refine ⟨?_, ?_, ?_, ?_⟩
          · rw [hsame.streams, hsame'.streams]
            exact h.stream
          · rw [hsame.udpDest, hsame'.udpDest]
            exact h.udpDest
          · rw [hsame.txRunning]
            exact h.running
          · rw [hsame'.txRunning]
            exact h.running'
      | stopAll request cmd hasks _ => exact absurd rfl (hother request cmd _ hasks).2.2
      | hello request cmd hasks _ _ _ _ => exact absurd rfl (hother request cmd _ hasks).1
      | setRx request cmd hasks _ => exact absurd rfl (hother request cmd _ hasks).2.1
  | stopAll request cmd hasks hafter =>
      have hafter' : (s'.request host deviceTimeMs peerIp line).1 = s'.stopAll := by
        unfold FakeAc920Server.request
        rw [hasks.dispatch_eq, execute, hasks.commandOf_eq]
      rw [hafter, hafter']
      refine ⟨?_, h.udpDest, h.running, h.running'⟩
      simp only [stopAll, h.stream]
  | hello request cmd hasks hstreams hdest htx hsent =>
      have hexecute : (s'.request host deviceTimeMs peerIp line).1 =
          (cmdHello host.tables s' (request.getD "request_id" .none) request peerIp).1 := by
        unfold FakeAc920Server.request
        rw [hasks.dispatch_eq, execute, hasks.commandOf_eq]
      rcases cmdHello_effect host.tables s' (request.getD "request_id" .none) request peerIp with
        ⟨hstreams', hdest', htx', _⟩
      rw [hexecute]
      refine ⟨?_, ?_, by rw [htx]; exact h.running, by rw [htx']; exact h.running'⟩
      · rw [hstreams, hstreams']
        exact h.stream
      · rw [hdest, hdest']
        unfold helloDest
        rw [h.udpDest]
  | setRx request cmd hasks hafter =>
      have hexecute : (s'.request host deviceTimeMs peerIp line).1 =
          (cmdSetRx host.tables s' (request.getD "request_id" .none) request).1 := by
        unfold FakeAc920Server.request
        rw [hasks.dispatch_eq, execute, hasks.commandOf_eq]
      rw [hafter, hexecute]
      refine sameStream_cmdSetRx h host.tables ?_ _
      intro j htarget
      by_contra hj
      have hmine : addressedTo host.tables j (.line deviceTimeMs peerIp line) = true :=
        addressedTo_line.2 ⟨request, cmd, hasks, htarget⟩
      exact absurd ((he j hj).symm.trans hmine) (by decide)

theorem sameStream_step (hcount : Code.H.Fits host.config.sampleCount) {s s' : FakeAc920Server}
    (h : SameStream i s s') {e : Event} (hs : Undisturbed host s e) (hs' : Undisturbed host s' e)
    (he : ∀ j, j ≠ i → addressedTo host.tables j e = false) :
    SameStream i (s.step host e) (s'.step host e) ∧ packetsOf host i s e = packetsOf host i s' e := by
  cases e with
  | line deviceTimeMs peerIp line =>
      exact ⟨sameStream_line h he, rfl⟩
  | release =>
      refine ⟨⟨?_, rfl, h.running, h.running'⟩, rfl⟩
      simp only [FakeAc920Server.step, release, stopAll, h.stream]
  | iqTurn =>
      rcases iqTurn_ready (i := i) hcount h.running (hs rfl) with ⟨htx, hturn⟩
      rcases iqTurn_ready (i := i) hcount h.running' (hs' rfl) with ⟨htx', hturn'⟩
      rw [h.stream, h.udpDest] at hturn
      have hdest : (s.iqTurn host).1.udpDest = (s'.iqTurn host).1.udpDest := by
        rw [iqTurn_udpDest, iqTurn_udpDest]
        exact h.udpDest
      split at hturn
      next hcond =>
        rw [if_pos hcond] at hturn'
        exact ⟨⟨hturn.1.trans hturn'.1.symm, hdest, htx, htx'⟩, hturn.2.trans hturn'.2.symm⟩
      next hcond =>
        rw [if_neg hcond] at hturn'
        exact ⟨⟨hturn.1.trans hturn'.1.symm, hdest, htx, htx'⟩, hturn.2.trans hturn'.2.symm⟩
  | psdTurn clock =>
      have hsame := sameTransmit_psdTurn host s clock
      have hsame' := sameTransmit_psdTurn host s' clock
      refine ⟨⟨?_, ?_, hsame.txRunning.trans h.running, hsame'.txRunning.trans h.running'⟩, rfl⟩
      · simp only [FakeAc920Server.step, hsame.streams, hsame'.streams, h.stream]
      · simp only [FakeAc920Server.step, hsame.udpDest, hsame'.udpDest, h.udpDest]
  | statusTurn =>
      have hsame := sameTransmit_statusTurn host s
      have hsame' := sameTransmit_statusTurn host s'
      refine ⟨⟨?_, ?_, hsame.txRunning.trans h.running, hsame'.txRunning.trans h.running'⟩, rfl⟩
      · simp only [FakeAc920Server.step, hsame.streams, hsame'.streams, h.stream]
      · simp only [FakeAc920Server.step, hsame.udpDest, hsame'.udpDest, h.udpDest]

/-- The line is a `set_rx` for a stream other than `i`. -/
def forOther (T : PyTables) (i : Fin 2) (e : Event) : Bool :=
  decide (∃ j, j ≠ i ∧ addressedTo T j e = true)

/-- The packets of a stream are the same without the requests for the other one. -/
theorem packets_filter (hcount : Code.H.Fits host.config.sampleCount) {s : FakeAc920Server}
    (hrunning : s.txRunning = true) {es : List Event}
    (hes : Along (FakeAc920Server.step host) (Undisturbed host) s es)
    (hes' : Along (FakeAc920Server.step host) (Undisturbed host) s
      (es.filter fun e => !forOther host.tables i e)) :
    emits (FakeAc920Server.step host) (packetsOf host i) s es =
      emits (FakeAc920Server.step host) (packetsOf host i) s
        (es.filter fun e => !forOther host.tables i e) := by
  refine emits_filter (R := SameStream i) ?_ ?_ ⟨rfl, rfl, hrunning, hrunning⟩ hes hes'
  · intro s s' e h _ he
    rw [Bool.not_eq_false'] at he
    rcases of_decide_eq_true he with ⟨j, hj, haddressed⟩
    exact sameStream_addressed h hj haddressed
  · intro s s' e h hs hs' he
    rw [Bool.not_eq_true'] at he
    refine sameStream_step hcount h hs hs' ?_
    intro j hj
    cases haddressed : addressedTo host.tables j e with
    | false => rfl
    | true => exact absurd ⟨j, hj, haddressed⟩ (of_decide_eq_false he)

end Independence

/-- After an accepted `set_rx` for stream `i`, and until the next one, the stream generates the packets
`0, 1, 2, …` of that request, whatever else happens in between; and the requests for the other stream
could as well be left out. -/
theorem stream_numbering (host : Host) (hcount : Code.H.Fits host.config.sampleCount)
    (before : List Event) (i : Fin 2) {deviceTimeMs : Int} {peerIp : PyStr} {line : List UInt8}
    {request : PyDict} {cmd : PyStr} {f r b : Int}
    (hasks : Asks host.tables line request cmd .setRx) (htarget : RxTarget host.tables request i)
    (haccepted : RxAccepted host.tables ((run host before).streams i) request)
    (hf : intField host.tables request "frequency_hz"
      ((run host before).streams i).frequencyHz = .ok f)
    (hr : intField host.tables request "iq_sample_rate_hz"
      ((run host before).streams i).iqSampleRateHz = .ok r)
    (hb : intField host.tables request "bandwidth_hz"
      ((run host before).streams i).bandwidthHz = .ok b)
    (hfits : Code.Q.Fits f ∧ Code.I.Fits b) (after : List Event)
    (hafter : Along (FakeAc920Server.step host) (EpochStep host i)
      (run host (before ++ [.line deviceTimeMs peerIp line])) after) :
    (∃ n, emits (FakeAc920Server.step host) (packetsOf host i)
        (run host (before ++ [.line deviceTimeMs peerIp line])) after =
      (List.range n).map (numberedHeader host.config.toIqConfig i f r b)) ∧
    (∀ k,
      (Int.land (numberedHeader host.config.toIqConfig i f r b k).flags
        SDR_IQ_FLAG_DISCONTINUITY ≠ 0 ↔ k = 0) ∧
      (Int.land (numberedHeader host.config.toIqConfig i f r b k).flags
        SDR_IQ_FLAG_CONFIG_CHANGED ≠ 0 ↔ k = 0)) ∧
    (Along (FakeAc920Server.step host) (Undisturbed host)
        (run host (before ++ [.line deviceTimeMs peerIp line])) after →
      Along (FakeAc920Server.step host) (Undisturbed host)
        (run host (before ++ [.line deviceTimeMs peerIp line]))
        (after.filter fun e => !forOther host.tables i e) →
      emits (FakeAc920Server.step host) (packetsOf host i)
          (run host (before ++ [.line deviceTimeMs peerIp line])) after =
        emits (FakeAc920Server.step host) (packetsOf host i)
          (run host (before ++ [.line deviceTimeMs peerIp line]))
          (after.filter fun e => !forOther host.tables i e)) := by
  have hstart : run host (before ++ [.line deviceTimeMs peerIp line]) =
      ((run host before).request host deviceTimeMs peerIp line).1 :=
    runFrom_snoc (FakeAc920Server.step host) {} before (.line deviceTimeMs peerIp line)
  rcases atPacket_accepted deviceTimeMs peerIp
    (allNumbered_run host before) hasks htarget haccepted hf hr hb with ⟨hat, hrunning, hrate⟩
  rw [hstart] at hafter ⊢
  refine ⟨?_, numberedHeader_flags host.config.toIqConfig i f r b, ?_⟩
  · rcases atPacket_run hcount hrate hfits.1 hfits.2 hat after hafter with ⟨n, _, hpackets⟩
    exact ⟨n, hpackets⟩
  · exact packets_filter hcount hrunning

/-- A request that tunes stream 0 to 100 MHz. -/
def tuneLine : List UInt8 :=
  lineOf ("\x7b\"request_id\":2,\"cmd\":\"set_rx\",\"stream_id\":0,\"enable\":true," ++
    "\"frequency_hz\":100000000,\"iq_sample_rate_hz\":500000\x7d")

/-- A request for the other stream. -/
def otherLine : List UInt8 :=
  lineOf "\x7b\"request_id\":3,\"cmd\":\"set_rx\",\"stream_id\":1,\"enable\":true\x7d"

def tuneRequest : PyDict :=
  fieldsOf [("request_id", .int 2), ("cmd", .str (py "set_rx")), ("stream_id", .int 0),
    ("enable", .bool true), ("frequency_hz", .int 100000000), ("iq_sample_rate_hz", .int 500000)]

theorem asks_tuneLine : Asks .ascii tuneLine tuneRequest (py "set_rx") .setRx :=
  ⟨by decide +kernel, by decide +kernel, by decide +kernel, by decide +kernel⟩

/-- Two turns, the other stream's request between them, and the end of the session. -/
theorem stream_numbering_tuneLine :
    ∃ n, emits (FakeAc920Server.step asciiHost) (packetsOf asciiHost 0)
        (run asciiHost ([.line 0 (py "127.0.0.1") helloLine] ++ [.line 0 (py "127.0.0.1") tuneLine]))
        [.iqTurn, .line 0 (py "127.0.0.1") otherLine, .iqTurn, .release, .iqTurn] =
      (List.range n).map (numberedHeader {} 0 100000000 500000 250000) := by
  have hstream : (run asciiHost [.line 0 (py "127.0.0.1") helloLine]).streams 0 = { streamId := 0 } := by
    decide +kernel
  have hother : addressedTo .ascii 0 (.line 0 (py "127.0.0.1") otherLine) = false := by
    decide +kernel
  have haccepted : RxAccepted .ascii { streamId := 0 } tuneRequest :=
    ⟨by decide +kernel, by decide +kernel, by decide +kernel⟩
  have hdest (s : FakeAc920Server) : EpochStep asciiHost 0 s .iqTurn := fun _ _ => rfl
  refine (stream_numbering asciiHost (by decide) [.line 0 (py "127.0.0.1") helloLine] 0 asks_tuneLine
    ⟨0, by decide +kernel, rfl⟩ (by rw [hstream]; exact haccepted) (f := 100000000) (r := 500000)
    (b := 250000) (by rw [hstream]; decide +kernel) (by rw [hstream]; decide +kernel)
    (by rw [hstream]; decide +kernel) ⟨by decide, by decide⟩ _ ?_).1
  refine ⟨hdest _, ?_, hdest _, trivial, hdest _, trivial⟩
  intro request cmd hasks htarget
  have hmine : addressedTo .ascii 0 (.line 0 (py "127.0.0.1") otherLine) = true :=
    addressedTo_line.2 ⟨request, cmd, hasks, htarget⟩
  exact absurd (hother.symm.trans hmine) (by decide)

end Simulator
end Sdr
