import Sdr.Backend.IqDelivery
import Sdr.Simulator.Numbering

/-!
# StreamDelivery — from the fake device to the receiver

What `_send_iq_packet` puts on the wire, and what `UdpReceivers._handle_iq` and the statistics of the
backend make of it.  The device withholds every `drop_every`-th packet, and the network may lose more.
Since a withheld packet takes its number with it, the receiver's counters tell exactly how many packets
between the first and the last one it has seen are missing (`stream_accounted`).

The oscillators compute in floating point.  What they give is a parameter, `makeIq n` for the `n`-th call
of `_send_iq_packet`; each call asks for the samples once, before the packet is sent or withheld.
-/

namespace Sdr
namespace Simulator

open Lib Lib.Struct Protocol FakeAc920Server
open Backend (AppState SentPacket ArrivesAfter Accounted receivedIq handleIq)

/-! ## What goes on the wire -/

/-- `complex_to_sc16`, from `int(sample.real * 32767.0)` and `int(sample.imag * 32767.0)`. -/
def complexToSc16 (iq : List (Int × Int)) : List Byte :=
  iq.flatMap fun sample =>
    Code.h.encode (max (-32768) (min 32767 sample.1)) ++
      Code.h.encode (max (-32768) (min 32767 sample.2))

theorem length_complexToSc16 (iq : List (Int × Int)) :
    (complexToSc16 iq).length = 4 * iq.length := by
  induction iq with
  | nil =>
      rfl
  | cons sample iq ih =>
      simp only [complexToSc16, List.flatMap_cons, List.length_append, Code.length_encode,
        List.length_cons] at ih ⊢
      rw [ih]
      show 2 + 2 + _ = _
      omega

section Wire

variable (host : Host) (makeIq : Nat → List (Int × Int))

/-- The payload of the packet that is generated in this state. -/
def payload (s : FakeAc920Server) : List Byte :=
  complexToSc16 (makeIq s.iqPacketsSent)

/-- The datagram of a packet that is not withheld. -/
def wirePacket (s : FakeAc920Server) (i : Fin 2) : List (Fin 2 × List Byte) :=
  if shouldDrop host (s.iqPacketsSent + 1) || s.udpDest.isNone then
    []
  else
    match ((s.streams i).iqHeader host.config.toIqConfig).pack with
    | .ok bytes => [(i, bytes ++ payload makeIq s)]
    | .error _ => []

/-- What the packets of one turn put out, as `sendIqPackets` goes through the streams. -/
def turnOf (out : FakeAc920Server → Fin 2 → List (Fin 2 × List Byte)) :
    FakeAc920Server → List (Fin 2) → List (Fin 2 × List Byte)
  | _, [] => []
  | s, i :: rest =>
    match s.sendIqPacket host i with
    | (_, .error _) => []
    | (s', .ok _) => out s i ++ turnOf out s' rest

/-- What an event puts out for stream `i`. -/
def eventOf (out : FakeAc920Server → Fin 2 → List (Fin 2 × List Byte)) (i : Fin 2)
    (s : FakeAc920Server) : Event → List (List Byte)
  | .iqTurn =>
    if s.txRunning ∧ s.udpDest.isSome then
      ((turnOf host out s s.active).filter fun packet => packet.1 == i).map Prod.snd
    else
      []
  | _ => []

/-- The datagrams of stream `i` that an event puts on the wire. -/
def wireOf (i : Fin 2) (s : FakeAc920Server) (e : Event) : List (List Byte) :=
  eventOf host (wirePacket host makeIq) i s e

/-- The payloads of the packets that an event generates for stream `i`, sent or withheld. -/
def payloadsOf (i : Fin 2) (s : FakeAc920Server) (e : Event) : List (List Byte) :=
  eventOf host (fun s j => [(j, payload makeIq s)]) i s e

end Wire

/-! ## One datagram -/

/-- The receiver reads the datagram as packet `k`, with the payload that was made for it. -/
def Carries (config : IqConfig) (i : Fin 2) (f r b : Int) (payloads : List (List Byte)) (k : Nat)
    (data : List Byte) : Prop :=
  ∃ samples, payloads[k]? = some samples ∧ (samples.length : Int) = 4 * config.sampleCount ∧
    receivedIq data = some (numberedHeader config i f r b k, samples)

theorem Carries.append {config : IqConfig} {i : Fin 2} {f r b : Int} {payloads : List (List Byte)}
    {k : Nat} {data : List Byte} (h : Carries config i f r b payloads k data)
    (more : List (List Byte)) : Carries config i f r b (payloads ++ more) k data := by
  obtain ⟨samples, hget, hrest⟩ := h
  exact ⟨samples, by rw [List.getElem?_append_left (List.getElem?_eq_some_iff.1 hget).1, hget], hrest⟩

theorem receivedIq_packed {header : SdrIqHeader} {bytes samples : List Byte}
    (hpack : header.pack = .ok bytes) (hlen : (samples.length : Int) = header.payloadBytes) :
    receivedIq (bytes ++ samples) = some (header, samples) := by
  have hsize : bytes.length = IQ_HEADER_SIZE :=
    Struct.length_of_pack (SdrIqHeader.pack_eq_ok.1 hpack).2
  have hlong : ¬(bytes ++ samples).length < IQ_HEADER_SIZE := by
    rw [List.length_append]
    omega
  have hunpack : SdrIqHeader.unpack bytes = .ok header := by
    simpa using SdrIqHeader.unpack_pack [] hpack
  have hcount : header.payloadBytes.toNat = samples.length := by
    omega
  simp only [receivedIq, handleIq, if_neg hlong, List.take_left' hsize, List.drop_left' hsize,
    hunpack, hcount, List.take_length]

section Turn

variable {host : Host} {makeIq : Nat → List (Int × Int)} {i : Fin 2}

/-- What is put out belongs to the stream whose turn it is. -/
def Labelled (out : FakeAc920Server → Fin 2 → List (Fin 2 × List Byte)) : Prop :=
  ∀ s j, ∀ packet ∈ out s j, packet.1 = j

theorem labelled_wirePacket (host : Host) (makeIq : Nat → List (Int × Int)) :
    Labelled (wirePacket host makeIq) := by
  intro s j packet hpacket
  unfold wirePacket at hpacket
  split at hpacket
  · cases hpacket
  · split at hpacket
    · rw [List.mem_singleton.1 hpacket]
    · cases hpacket

theorem labelled_payload (makeIq : Nat → List (Int × Int)) :
    Labelled (fun s j => [(j, payload makeIq s)]) := by
  intro s j packet hpacket
  rw [List.mem_singleton.1 hpacket]

theorem Labelled.filter_self {out : FakeAc920Server → Fin 2 → List (Fin 2 × List Byte)}
    (h : Labelled out) (s : FakeAc920Server) :
    ((out s i).filter fun packet => packet.1 == i) = out s i := by
  rw [List.filter_eq_self]
  intro packet hpacket
  simp [h s i packet hpacket]

theorem Labelled.filter_other {out : FakeAc920Server → Fin 2 → List (Fin 2 × List Byte)}
    (h : Labelled out) {s : FakeAc920Server} {j : Fin 2} (hj : j ≠ i) :
    ((out s j).filter fun packet => packet.1 == i) = [] := by
  rw [List.filter_eq_nil_iff]
  intro packet hpacket
  rw [h s j packet hpacket]
  simpa using hj

theorem Labelled.turn_other {out : FakeAc920Server → Fin 2 → List (Fin 2 × List Byte)}
    (h : Labelled out) {is : List (Fin 2)} (hi : i ∉ is) (s : FakeAc920Server) :
    ((turnOf host out s is).filter fun packet => packet.1 == i) = [] := by
  induction is generalizing s with
  | nil =>
      rfl
  | cons j rest ih =>
      rw [List.mem_cons, not_or] at hi
      unfold turnOf
      split
      next => rfl
      next s' header hs =>
        rw [List.filter_append, h.filter_other (Ne.symm hi.1), ih hi.2]
        rfl

/-- What a turn puts out for stream `i` is what the packet `i` puts out, in a state in which the stream
is as it was before the turn. -/
theorem turn_one (hcount : Code.H.Fits host.config.sampleCount) {is : List (Fin 2)}
    (hnodup : is.Nodup) {s : FakeAc920Server} (hfits : StreamFits (s.streams i))
    (hdest : DestTaken host s.udpDest) :
    ((sendIqPackets host s is).1.streams i = s.streams i ∧
        ((sendIqPackets host s is).2.filter fun packet => packet.1 == i) = [] ∧
          ∀ out, Labelled out → ((turnOf host out s is).filter fun packet => packet.1 == i) = []) ∨
      ∃ s' : FakeAc920Server, s'.streams i = s.streams i ∧ s'.udpDest = s.udpDest ∧
        (sendIqPackets host s is).1.streams i =
            ((s.streams i).sendIqPacket host.config.toIqConfig).2 ∧
          ((sendIqPackets host s is).2.filter fun packet => packet.1 == i) =
              [(i, (s.streams i).iqHeader host.config.toIqConfig)] ∧
            ∀ out, Labelled out →
              ((turnOf host out s is).filter fun packet => packet.1 == i) = out s' i := by
  induction is generalizing s with
  | nil =>
      exact .inl ⟨rfl, rfl, fun _ _ => rfl⟩
  | cons j rest ih =>
      rw [List.nodup_cons] at hnodup
      by_cases hj : j = i
      · subst hj
        have hsend := hfits.sendIqPacket_eq hdest hcount
        -- The rest of the turn is about the other stream.
        rcases sendIqPackets_other host rest hnodup.1
          { s.setStream j ((s.streams j).sendIqPacket host.config.toIqConfig).2 with
            iqPacketsSent := s.iqPacketsSent + 1 } with ⟨hrest, hfilter⟩
        refine .inr ⟨s, rfl, rfl, ?_, ?_, ?_⟩
        · unfold sendIqPackets
          rw [hsend]
          exact hrest.trans (by simp [setStream])
        · unfold sendIqPackets
          rw [hsend]
          simpa using hfilter
        · intro out hout
          unfold turnOf
          rw [hsend]
          dsimp only
          rw [List.filter_append, hout.filter_self, hout.turn_other hnodup.1, List.append_nil]
      · rcases sendIqPacket_streams host s j with ⟨hother, _, hudp, _⟩
        have hstream := hother i (Ne.symm hj)
        obtain ⟨⟨s', result⟩, hs⟩ : ∃ sr, s.sendIqPacket host j = sr := ⟨_, rfl⟩
        rw [hs] at hstream hudp
        cases result with
        | error e =>
            simp only [sendIqPackets, turnOf, hs]
            exact .inl ⟨hstream, rfl, fun _ _ => rfl⟩
        | ok header =>
            have hrest := ih hnodup.2 (s := s') (by rw [hstream]; exact hfits)
              (by rw [hudp]; exact hdest)
            rw [hstream, hudp] at hrest
            have hskip : ∀ out, Labelled out →
                ((turnOf host out s (j :: rest)).filter fun packet => packet.1 == i) =
                  (turnOf host out s' rest).filter fun packet => packet.1 == i := by
              intro out hout
              simp only [turnOf, hs]
              rw [List.filter_append, hout.filter_other hj, List.nil_append]
            simp only [sendIqPackets, hs]
            rcases hrest with ⟨hnext, hpackets, hturn⟩ | ⟨s₁, hs₁, hudp₁, hnext, hpackets, hturn⟩
            · refine .inl ⟨hnext, by simpa [hj] using hpackets, ?_⟩
              exact fun out hout => (hskip out hout).trans (hturn out hout)
            · refine .inr ⟨s₁, hs₁, hudp₁, hnext, by simpa [hj] using hpackets, ?_⟩
              exact fun out hout => (hskip out hout).trans (hturn out hout)

/-- The packet of a stream that can be sent goes on the wire, unless it is withheld. -/
theorem wirePacket_cases (makeIq : Nat → List (Int × Int)) {s : FakeAc920Server}
    (hfits : StreamFits (s.streams i)) (hsome : s.udpDest.isSome = true)
    (hcount : Code.H.Fits host.config.sampleCount) :
    (wirePacket host makeIq s i = [] ∧ 0 < host.config.dropEvery) ∨
      ∃ bytes, ((s.streams i).iqHeader host.config.toIqConfig).pack = .ok bytes ∧
        wirePacket host makeIq s i = [(i, bytes ++ payload makeIq s)] := by
  obtain ⟨bytes, hpack⟩ := hfits.exists_pack hcount
  have hnone : s.udpDest.isNone = false := by
    cases hdest : s.udpDest <;> simp_all
  cases hdrop : shouldDrop host (s.iqPacketsSent + 1) with
  | true =>
      left
      have hevery : 0 < host.config.dropEvery := by
        simp only [shouldDrop, Bool.and_eq_true, decide_eq_true_eq] at hdrop
        exact hdrop.1
      exact ⟨by simp [wirePacket, hdrop], hevery⟩
  | false =>
      right
      exact ⟨bytes, hpack, by simp [wirePacket, hdrop, hnone, hpack]⟩

end Turn

/-! ## An epoch of a stream -/

section Epoch

variable {host : Host} {makeIq : Nat → List (Int × Int)} {i : Fin 2} {f r b : Int}

/-- One event of the epoch, with the payload it makes and what the wire carries. -/
theorem wire_step (hmake : ∀ n, ((makeIq n).length : Int) = host.config.sampleCount)
    (hcount : Code.H.Fits host.config.sampleCount) (hrate : supportedRate r = true)
    (hf : Code.Q.Fits f) (hb : Code.I.Fits b) {k : Nat} {s : FakeAc920Server}
    (h : AtPacket host.config.toIqConfig i f r b k (s.streams i)) {e : Event}
    (hstep : EpochStep host i s e) :
    (AtPacket host.config.toIqConfig i f r b k ((s.step host e).streams i) ∧
        packetsOf host i s e = [] ∧ payloadsOf host makeIq i s e = [] ∧
          wireOf host makeIq i s e = []) ∨
      (AtPacket host.config.toIqConfig i f r b (k + 1) ((s.step host e).streams i) ∧
        packetsOf host i s e = [numberedHeader host.config.toIqConfig i f r b k] ∧
          ∃ samples, payloadsOf host makeIq i s e = [samples] ∧
            (samples.length : Int) = 4 * host.config.sampleCount ∧
              ((wireOf host makeIq i s e = [] ∧ 0 < host.config.dropEvery) ∨
                ∃ data, wireOf host makeIq i s e = [data] ∧
                  receivedIq data =
                    some (numberedHeader host.config.toIqConfig i f r b k, samples))) := by
  cases e with
  | iqTurn =>
      by_cases hready : s.txRunning ∧ s.udpDest.isSome
      · have hnodup : s.active.Nodup := (List.nodup_finRange 2).filter _
        have hturn : s.iqTurn host = sendIqPackets host s s.active := if_pos hready
        have heventOf : ∀ out, eventOf host out i s .iqTurn =
            ((turnOf host out s s.active).filter fun packet => packet.1 == i).map Prod.snd :=
          fun _ => if_pos hready
        have hfits := h.streamFits hrate hf hb
        rcases turn_one hcount hnodup hfits hstep with
          ⟨hstream, hpackets, hnothing⟩ | ⟨s', hs', hudp', hstream, hpackets, hone⟩
        · -- The turn ends before this stream, or the stream is not active.
          left
          refine ⟨?_, ?_, ?_, ?_⟩
          · rw [FakeAc920Server.step, hturn, hstream]
            exact h
          · rw [packetsOf, hturn, hpackets]
            rfl
          · rw [payloadsOf, heventOf, hnothing _ (labelled_payload makeIq)]
            rfl
          · rw [wireOf, heventOf, hnothing _ (labelled_wirePacket host makeIq)]
            rfl
        · right
          have hlen : ((payload makeIq s').length : Int) = 4 * host.config.sampleCount := by
            rw [payload, length_complexToSc16, ← hmake s'.iqPacketsSent]
            push_cast
            rfl
          refine ⟨?_, ?_, payload makeIq s', ?_, hlen, ?_⟩
          · rw [FakeAc920Server.step, hturn, hstream]
            exact h.next
          · rw [packetsOf, hturn, hpackets, ← h.iqHeader_eq]
            rfl
          · rw [payloadsOf, heventOf, hone _ (labelled_payload makeIq)]
            rfl
          · rw [wireOf, heventOf, hone _ (labelled_wirePacket host makeIq)]
            rw [← hs'] at hfits
            -- The packet is counted in any case; `drop_every` may withhold its datagram.
            rcases wirePacket_cases makeIq hfits (by rw [hudp']; exact hready.2) hcount
              with ⟨hnone, hdrop⟩ | ⟨bytes, hpack, hgram⟩
            · exact .inl ⟨by rw [hnone]; rfl, hdrop⟩
            · rw [hs', h.iqHeader_eq] at hpack
              exact .inr ⟨_, by rw [hgram]; rfl, receivedIq_packed hpack hlen⟩
      · left
        have hturn : s.iqTurn host = (s, []) := if_neg hready
        refine ⟨?_, ?_, if_neg hready, if_neg hready⟩
        · rw [FakeAc920Server.step, hturn]
          exact h
        · rw [packetsOf, hturn]
          rfl
  | line _ _ _ | release | psdTurn _ | statusTurn =>
      rcases atPacket_step hcount hrate hf hb h hstep with ⟨hat, hpackets⟩ | ⟨_, hpackets⟩
      · exact .inl ⟨hat, hpackets, rfl, rfl⟩
      · cases hpackets

/-- The packets `ns` of the `n` generated so far are on the wire, in order. -/
structure OnWire (host : Host) (i : Fin 2) (f r b : Int) (n : Nat) (payloads : List (List Byte))
    (ns : List Nat) (grams : List (List Byte)) : Prop where
  length : payloads.length = n
  sorted : ns.Pairwise (· < ·)
  lt : ∀ m ∈ ns, m < n
  carries : List.Forall₂ (Carries host.config.toIqConfig i f r b payloads) ns grams
  all : host.config.dropEvery ≤ 0 → ns = List.range n

theorem OnWire.next {n : Nat} {payloads : List (List Byte)} {ns : List Nat}
    {grams : List (List Byte)} (h : OnWire host i f r b n payloads ns grams)
    {samples data : List Byte} (hlen : (samples.length : Int) = 4 * host.config.sampleCount)
    (hdata : receivedIq data = some (numberedHeader host.config.toIqConfig i f r b n, samples)) :
    OnWire host i f r b (n + 1) (payloads ++ [samples]) (ns ++ [n]) (grams ++ [data]) where
  length := by
    rw [List.length_append, h.length, List.length_singleton]
  sorted := by
    refine List.pairwise_append.2 ⟨h.sorted, List.pairwise_singleton _ _, ?_⟩
    intro m hm k hk
    rw [List.mem_singleton.1 hk]
    exact h.lt m hm
  lt := by
    intro m hm
    rcases List.mem_append.1 hm with hm | hm
    · exact Nat.lt_succ_of_lt (h.lt m hm)
    · rw [List.mem_singleton.1 hm]
      exact Nat.lt_succ_self n
  carries := by
    refine List.rel_append (h.carries.imp fun _ _ hold => hold.append [samples]) (.cons ?_ .nil)
    exact ⟨samples, by rw [← h.length, List.getElem?_concat_length], hlen, hdata⟩
  all := by
    intro hnone
    rw [h.all hnone, List.range_succ]

theorem OnWire.withheld {n : Nat} {payloads : List (List Byte)} {ns : List Nat}
    {grams : List (List Byte)} (h : OnWire host i f r b n payloads ns grams)
    (hdrop : 0 < host.config.dropEvery) (samples : List Byte) :
    OnWire host i f r b (n + 1) (payloads ++ [samples]) ns grams where
  length := by
    rw [List.length_append, h.length, List.length_singleton]
  sorted := h.sorted
  lt := fun m hm => Nat.lt_succ_of_lt (h.lt m hm)
  carries := h.carries.imp fun _ _ hold => hold.append [samples]
  all := fun hnone => absurd hdrop (by omega)

theorem wire_run (hmake : ∀ n, ((makeIq n).length : Int) = host.config.sampleCount)
    (hcount : Code.H.Fits host.config.sampleCount) (hrate : supportedRate r = true)
    (hf : Code.Q.Fits f) (hb : Code.I.Fits b) {s : FakeAc920Server}
    (h : AtPacket host.config.toIqConfig i f r b 0 (s.streams i)) (es : List Event)
    (hes : Along (FakeAc920Server.step host) (EpochStep host i) s es) :
    ∃ n ns, AtPacket host.config.toIqConfig i f r b n
        ((runFrom (FakeAc920Server.step host) s es).streams i) ∧
      (emits (FakeAc920Server.step host) (packetsOf host i) s es).length = n ∧
        OnWire host i f r b n
          (emits (FakeAc920Server.step host) (payloadsOf host makeIq i) s es) ns
          (emits (FakeAc920Server.step host) (wireOf host makeIq i) s es) := by
  refine history_invariant (C := EpochStep host i)
    (P := fun es s' => ∃ n ns, AtPacket host.config.toIqConfig i f r b n (s'.streams i) ∧
      (emits (FakeAc920Server.step host) (packetsOf host i) s es).length = n ∧
        OnWire host i f r b n
          (emits (FakeAc920Server.step host) (payloadsOf host makeIq i) s es) ns
          (emits (FakeAc920Server.step host) (wireOf host makeIq i) s es))
    ⟨0, [], h, rfl, rfl, List.Pairwise.nil, by simp, .nil, fun _ => rfl⟩ ?_ es hes
  rintro es e ⟨n, ns, hat, hpackets, hwire⟩ hstep
  rw [emits_snoc, emits_snoc, emits_snoc, List.length_append, hpackets]
  rcases wire_step hmake hcount hrate hf hb hat hstep with
    ⟨hnext, hout, hmade, hgram⟩ | ⟨hnext, hout, samples, hmade, hlen, hgram | ⟨data, hgram, hdata⟩⟩
  · exact ⟨n, ns, hnext, by simp [hout], by simpa [hmade, hgram] using hwire⟩
  · refine ⟨n + 1, ns, hnext, by simp [hout], ?_⟩
    simpa [hmade, hgram.1] using hwire.withheld hgram.2 samples
  · refine ⟨n + 1, ns ++ [n], hnext, by simp [hout], ?_⟩
    simpa [hmade, hgram] using hwire.next hlen hdata

end Epoch

/-! ## The receiver -/

section Receiver

variable {config : IqConfig} {i : Fin 2} {f r b : Int}

theorem sentPacket_numbered (k : Nat) :
    SentPacket 0 0 (Int.fdiv 250000000 r * config.sampleCount) k
      (numberedHeader config i f r b k) := by
  refine ⟨?_, ?_, rfl⟩
  · simp only [numberedHeader, zero_add]
  · simp only [numberedHeader, zero_add]

theorem samplesApart (hrate : supportedRate r = true) (hpos : 0 < config.sampleCount)
    (hcount : Code.H.Fits config.sampleCount) :
    0 < Int.fdiv 250000000 r * config.sampleCount ∧
      Int.fdiv 250000000 r * config.sampleCount < 2 ^ 32 := by
  rw [Code.fits_H] at hcount
  simp only [supportedRate, Bool.or_eq_true, beq_iff_eq] at hrate
  rcases hrate with ((rfl | rfl) | rfl) | rfl <;> norm_num [Int.fdiv] <;> omega

theorem headers_carried {payloads : List (List Byte)} {ns : List Nat} {grams : List (List Byte)}
    (h : List.Forall₂ (Carries config i f r b payloads) ns grams) :
    grams.filterMap (fun data => (receivedIq data).map Prod.fst) =
      ns.map (numberedHeader config i f r b) := by
  induction h with
  | nil =>
      rfl
  | cons hcarries _ ih =>
      obtain ⟨samples, -, -, hreceived⟩ := hcarries
      simp [hreceived, ih]

/-- In order, and close enough together for both counters. -/
theorem isChain_arrivesAfter {delta : Int} (hpos : 0 < delta) (hlt : delta < 2 ^ 32)
    {ns : List Nat} (hsorted : ns.Pairwise (· < ·)) (hfew : ∀ n ∈ ns, n < 2 ^ 32) :
    List.IsChain (ArrivesAfter delta) ns := by
  refine List.Pairwise.isChain (hsorted.imp_of_mem ?_)
  intro n m hn hm hnm
  have hm32 := hfew m hm
  refine ⟨hnm, by omega, ?_⟩
  have hgap : (m : Int) - n ≤ 2 ^ 32 - 1 := by omega
  calc
    ((m : Int) - n) * delta ≤ (2 ^ 32 - 1) * delta :=
      mul_le_mul_of_nonneg_right hgap (le_of_lt hpos)
    _ < 2 ^ 64 := by omega

theorem gaps_range' (start n : Nat) : Backend.gaps (List.range' start n) = 0 := by
  induction n generalizing start with
  | zero =>
      rfl
  | succ n ih =>
      cases n with
      | zero =>
          rfl
      | succ n =>
          have hrest := ih (start + 1)
          simp only [Backend.gaps, List.range'_succ, List.tail_cons, List.zip_cons_cons,
            List.countP_cons] at hrest ⊢
          simpa using hrest

/-- Nothing is missing from the first packets, all of them. -/
theorem accounted_range {n : Nat} (hn : n ≠ 0) {headers : List SdrIqHeader}
    {stats : Backend.StreamStats} (h : Accounted (List.range n) headers stats) :
    stats.packets = n ∧ (stats.lostPackets : Int) = 0 ∧ stats.timestampGaps = 0 := by
  refine ⟨by rw [h.packets, List.length_range], ?_, ?_⟩
  · obtain ⟨k, rfl⟩ := Nat.exists_eq_succ_of_ne_zero hn
    rw [h.lostPackets, List.range_succ, List.getLastD_concat, ← List.range_succ, List.length_range,
      List.range_succ_eq_map, List.headD_cons]
    push_cast
    omega
  · rw [h.timestampGaps, List.range_eq_range', gaps_range']

theorem exists_sublist_of_forall₂ {α β : Type} {R : α → β → Prop} {as : List α} {bs cs : List β}
    (h : List.Forall₂ R as bs) (hsub : cs.Sublist bs) :
    ∃ ks, List.Sublist ks as ∧ List.Forall₂ R ks cs := by
  induction hsub generalizing as with
  | slnil =>
      exact ⟨[], List.nil_sublist as, .nil⟩
  | cons b _ ih =>
      obtain ⟨a, as', _, hrest, rfl⟩ := List.forall₂_cons_right_iff.1 h
      obtain ⟨ks, hks, hforall⟩ := ih hrest
      exact ⟨ks, hks.cons a, hforall⟩
  | cons_cons b _ ih =>
      obtain ⟨a, as', hab, hrest, rfl⟩ := List.forall₂_cons_right_iff.1 h
      obtain ⟨ks, hks, hforall⟩ := ih hrest
      exact ⟨a :: ks, hks.cons_cons a, .cons hab hforall⟩

end Receiver

/-- After an accepted `set_rx` for stream `i`, and until the next one: whatever part of what the stream
puts on the wire arrives, the receiver reads the packets back under their numbers with the payloads made
for them, and its counters tell how many of those between the first and the last one it has not seen.
When no packet is withheld or lost, the counters say so. -/
theorem stream_accounted (host : Host) (hcount : Code.H.Fits host.config.sampleCount)
    (hpos : 0 < host.config.sampleCount) {makeIq : Nat → List (Int × Int)}
    (hmake : ∀ n, ((makeIq n).length : Int) = host.config.sampleCount)
    (before : List Event) (i : Fin 2) {deviceTimeMs : Int} {peerIp : PyStr} {line : List UInt8}
    {request : PyDict} {cmd : PyStr} {f r b : Int}
    (hasks : Asks host.tables line request cmd .setRx) (htarget : RxTarget host.tables request i)
    (haccepted : RxAccepted host.tables ((run host before).streams i) request)
    (hf : intField host.tables request "frequency_hz"
      ((run host before).streams i).frequencyHz = .ok f)
    (hr : intField host.tables request "iq_sample_rate_hz"
      ((run host before).streams i).iqSampleRateHz = .ok r)
    (hb : intField host.tables request "bandwidth_hz"
      ((run host before).streams i).bandwidthHz = .ok b)
    (hfits : Code.Q.Fits f ∧ Code.I.Fits b) (after : List Event)
    (hafter : Along (FakeAc920Server.step host) (EpochStep host i)
      (run host (before ++ [.line deviceTimeMs peerIp line])) after)
    (hfew : (emits (FakeAc920Server.step host) (packetsOf host i)
      (run host (before ++ [.line deviceTimeMs peerIp line])) after).length ≤ 2 ^ 32)
    {arrived : List (List Byte)}
    (harrived : arrived.Sublist (emits (FakeAc920Server.step host) (wireOf host makeIq i)
      (run host (before ++ [.line deviceTimeMs peerIp line])) after))
    (hsome : arrived ≠ []) {state : AppState} (hnew : state.streams.lookup (i.val : Int) = none) :
    ∃ ns, ns.Pairwise (· < ·) ∧
      (∀ n ∈ ns, n < (emits (FakeAc920Server.step host) (packetsOf host i)
        (run host (before ++ [.line deviceTimeMs peerIp line])) after).length) ∧
      List.Forall₂
        (Carries host.config.toIqConfig i f r b
          (emits (FakeAc920Server.step host) (payloadsOf host makeIq i)
            (run host (before ++ [.line deviceTimeMs peerIp line])) after)) ns arrived ∧
      ∃ stats,
        (runFrom AppState.receive state arrived).streams.lookup (i.val : Int) = some stats ∧
        Accounted ns (ns.map (numberedHeader host.config.toIqConfig i f r b)) stats ∧
        (host.config.dropEvery ≤ 0 →
          arrived = emits (FakeAc920Server.step host) (wireOf host makeIq i)
            (run host (before ++ [.line deviceTimeMs peerIp line])) after →
          stats.packets = (emits (FakeAc920Server.step host) (packetsOf host i)
              (run host (before ++ [.line deviceTimeMs peerIp line])) after).length ∧
            (stats.lostPackets : Int) = 0 ∧ stats.timestampGaps = 0) := by
  have hstart : run host (before ++ [.line deviceTimeMs peerIp line]) =
      ((run host before).request host deviceTimeMs peerIp line).1 :=
    runFrom_snoc (FakeAc920Server.step host) {} before (.line deviceTimeMs peerIp line)
  rcases atPacket_accepted deviceTimeMs peerIp
    (allNumbered_run host before) hasks htarget haccepted hf hr hb with ⟨hat, -, hrate⟩
  rw [← hstart] at hat
  obtain ⟨n, sent, -, hgenerated, hwire⟩ :=
    wire_run hmake hcount hrate hfits.1 hfits.2 hat after hafter
  rw [hgenerated] at hfew ⊢
  obtain ⟨ns, hns, hcarries⟩ := exists_sublist_of_forall₂ hwire.carries harrived
  have hsorted : ns.Pairwise (· < ·) := hwire.sorted.sublist hns
  have hlt : ∀ m ∈ ns, m < n := fun m hm => hwire.lt m (hns.subset hm)
  -- What the statistics are made of.
  obtain ⟨hapart, hbelow⟩ := samplesApart hrate hpos hcount
  have hchain := isChain_arrivesAfter hapart hbelow hsorted
    (fun m hm => Nat.lt_of_lt_of_le (hlt m hm) hfew)
  have hsent : List.Forall₂ (SentPacket 0 0 (Int.fdiv 250000000 r * host.config.sampleCount)) ns
      (ns.map (numberedHeader host.config.toIqConfig i f r b)) := by
    rw [List.forall₂_map_right_iff, List.forall₂_same]
    exact fun m _ => sentPacket_numbered m
  have hown : ∀ header ∈ ns.map (numberedHeader host.config.toIqConfig i f r b),
      header.streamId = i.val := by
    intro header hheader
    obtain ⟨m, -, rfl⟩ := List.mem_map.1 hheader
    rfl
  have hnil : ns ≠ [] := by
    rintro rfl
    exact hsome (List.forall₂_nil_left_iff.1 hcarries)
  obtain ⟨stats, hlookup, haccounted⟩ :
      ∃ stats,
        (runFrom AppState.receive state arrived).streams.lookup (i.val : Int) = some stats ∧
        Accounted ns (ns.map (numberedHeader host.config.toIqConfig i f r b)) stats := by
    obtain ⟨first, rest, rfl⟩ := List.exists_cons_of_ne_nil hnil
    rw [AppState.runFrom_receive, headers_carried hcarries]
    exact Backend.accounted_of_sent hapart hnew hchain hsent hown
  refine ⟨ns, hsorted, hlt, hcarries, stats, hlookup, haccounted, ?_⟩
  rintro hnone rfl
  -- All that was generated has arrived.
  have hlen : ns.length = sent.length := by
    rw [hcarries.length_eq, ← hwire.carries.length_eq]
  have hall : ns = List.range n := by
    rw [hns.eq_of_length hlen, hwire.all hnone]
  have hn : n ≠ 0 := by
    rintro rfl
    exact hnil hall
  rw [hall] at haccounted
  exact accounted_range hn haccounted

/-- 256 samples of silence. -/
def silence (_ : Nat) : List (Int × Int) :=
  List.replicate 256 (0, 0)

/-- The device when it has taken `tuneLine`. -/
def tunedDevice : FakeAc920Server :=
  run asciiHost ([.line 0 (py "127.0.0.1") helloLine] ++ [.line 0 (py "127.0.0.1") tuneLine])

/-- Three packets, and the end of the session. -/
def shortSession : List Event :=
  [.iqTurn, .iqTurn, .iqTurn, .release, .iqTurn]

def sessionGrams (i : Fin 2) : List (List Byte) :=
  emits (FakeAc920Server.step asciiHost) (wireOf asciiHost silence i) tunedDevice shortSession

/-- The packet numbers in the datagrams. -/
def seqs (grams : List (List Byte)) : List Nat :=
  grams.filterMap fun data => (receivedIq data).map fun packet => packet.1.seq.toNat

theorem seqs_carried {config : IqConfig} {i : Fin 2} {f r b : Int} {payloads : List (List Byte)}
    {ns : List Nat} {grams : List (List Byte)}
    (h : List.Forall₂ (Carries config i f r b payloads) ns grams) (hsmall : ∀ n ∈ ns, n < 2 ^ 32) :
    seqs grams = ns := by
  induction h with
  | nil =>
      rfl
  | @cons n _ ns _ hcarries _ ih =>
      obtain ⟨samples, -, -, hreceived⟩ := hcarries
      have hseq : (numberedHeader config i f r b n).seq.toNat = n := by
        have hlt := hsmall n (by simp)
        show ((n : Int) % 2 ^ 32).toNat = n
        omega
      have hrest := ih fun m hm => hsmall m (List.mem_cons_of_mem n hm)
      rw [seqs, List.filterMap_cons, hreceived]
      exact congrArg₂ List.cons hseq hrest

/-- All three packets arrive, or all but the second. -/
theorem stream_accounted_tuneLine :
    (∃ stats, (runFrom AppState.receive {} (sessionGrams 0)).streams.lookup (0 : Int) = some stats ∧
      stats.packets = 3 ∧ (stats.lostPackets : Int) = 0 ∧ stats.timestampGaps = 0) ∧
      ∃ stats, (runFrom AppState.receive {} ((sessionGrams 0).eraseIdx 1)).streams.lookup (0 : Int) =
          some stats ∧
        stats.packets = 2 ∧ (stats.lostPackets : Int) = 1 ∧ stats.timestampGaps = 1 := by
  have hstream : (run asciiHost [.line 0 (py "127.0.0.1") helloLine]).streams 0 =
      { streamId := 0 } := by
    decide +kernel
  have haccepted : RxAccepted .ascii { streamId := 0 } tuneRequest :=
    ⟨by decide +kernel, by decide +kernel, by decide +kernel⟩
  have hdest (s : FakeAc920Server) : EpochStep asciiHost 0 s .iqTurn := fun _ _ => rfl
  obtain ⟨hthree, hall, hsecond⟩ :
      (emits (FakeAc920Server.step asciiHost) (packetsOf asciiHost 0) tunedDevice
          shortSession).length = 3 ∧
        seqs (sessionGrams 0) = [0, 1, 2] ∧ seqs ((sessionGrams 0).eraseIdx 1) = [0, 2] := by
    decide +kernel
  have hsilence (n : Nat) : ((silence n).length : Int) = asciiHost.config.sampleCount := by
    rw [silence, List.length_replicate]
    rfl
  have hnew : ({} : AppState).streams.lookup (0 : Int) = none := rfl
  have hsome {arrived : List (List Byte)} (hseqs : seqs arrived ≠ []) : arrived ≠ [] := by
    rintro rfl
    exact hseqs rfl
  -- Whatever arrives of the session.
  have hsession {arrived : List (List Byte)} (harrived : arrived.Sublist (sessionGrams 0))
      (hseqs : seqs arrived ≠ []) :=
    stream_accounted asciiHost (by decide) (by decide) hsilence
      [.line 0 (py "127.0.0.1") helloLine] 0 (f := 100000000) (r := 500000) (b := 250000)
      asks_tuneLine ⟨0, by decide +kernel, rfl⟩ (by rw [hstream]; exact haccepted)
      (by rw [hstream]; decide +kernel) (by rw [hstream]; decide +kernel)
      (by rw [hstream]; decide +kernel) ⟨by decide, by decide⟩
      shortSession ⟨hdest _, hdest _, hdest _, trivial, hdest _, trivial⟩
      (Nat.le_trans (Nat.le_of_eq hthree) (by decide)) harrived (hsome hseqs) hnew
  constructor
  · obtain ⟨ns, -, -, -, stats, hlookup, -, hcomplete⟩ :=
      hsession (List.Sublist.refl _) (by rw [hall]; decide)
    have hcounts := hcomplete (by decide) rfl
    exact ⟨stats, hlookup, hcounts.1.trans hthree, hcounts.2⟩
  · obtain ⟨ns, -, hlt, hcarries, stats, hlookup, haccounted, -⟩ :=
      hsession (List.eraseIdx_sublist (sessionGrams 0) 1) (by rw [hsecond]; decide)
    have hns : ns = [0, 2] := by
      rw [← hsecond, seqs_carried hcarries]
      intro n hn
      exact Nat.lt_trans (Nat.lt_of_lt_of_eq (hlt n hn) hthree) (by decide)
    subst hns
    exact ⟨stats, hlookup, haccounted.packets, haccounted.lostPackets, haccounted.timestampGaps⟩

end Simulator
end Sdr
