import Sdr.Fpga.IqFraming
import Sdr.Lib.Blocks
import Sdr.Protocol.Packets

/-!
# IqHeader — the packetizer speaks the protocol of the receiver

`IqFraming` says that the output stream is a sequence of whole packets.  This module says what is in
them: the sixteen header words, written little-endian, are the bytes that `SdrIqHeader.pack` writes
for the header the registers describe, so `SdrIqHeader.unpack` reads that header back.  `Numbered`
is the run invariant that ties the registers to the number of the packet.
-/

namespace Sdr
namespace Fpga
namespace IqPacketizer

open Lib Lib.Struct Protocol

/-! ## Header words as bytes -/

/-- A word stream as the bytes a little-endian reader sees. -/
def wordBytes (ws : List (BitVec 32)) : List Byte :=
  ws.flatMap (fun w => toBytes 4 w.toNat)

/-- The header that the registers describe. -/
def headerOf (p : Params) (s : State) : SdrIqHeader where
  streamId := p.streamId.toNat
  seq := s.packetSeq.toNat
  adcTimestamp := s.packetTimestamp.toNat
  frequencyHz := s.frequencyLatched.toNat
  iqSampleRateHz := s.rateLatched.toNat
  bandwidthHz := s.bandwidthLatched.toNat
  sampleCount := p.frameSamples.toNat
  flags := (packetFlags s).toNat
  gainDbQ8 := s.gainLatched.toInt
  decimation := s.decimationLatched.toNat
  payloadBytes := 4 * p.frameSamples.toNat

/-- Two halves in one word come out low half first. -/
theorem toBytes_append_halves (hi lo : BitVec 16) :
    toBytes 4 (hi ++ lo).toNat = toBytes 2 lo.toNat ++ toBytes 2 hi.toNat := by
  have hlo := lo.isLt
  have hval : (hi ++ lo).toNat = hi.toNat * 2 ^ 16 + lo.toNat := by
    rw [BitVec.toNat_append, ← Nat.shiftLeft_add_eq_or_of_lt hlo, Nat.shiftLeft_eq]
  have hlow : (hi ++ lo).toNat % 256 ^ 2 = lo.toNat := by omega
  have hhigh : (hi ++ lo).toNat / 256 ^ 2 = hi.toNat := by omega
  rw [toBytes_add 2 2, hhigh, ← toBytes_mod 2 (hi ++ lo).toNat, hlow]

/-- A double word comes out low word first. -/
theorem toBytes_extract_words (x : BitVec 64) :
    toBytes 8 x.toNat =
      toBytes 4 (x.extractLsb' 0 32).toNat ++ toBytes 4 (x.extractLsb' 32 32).toNat := by
  have hlow : (x.extractLsb' 0 32).toNat = x.toNat % 256 ^ 4 := by
    simp [BitVec.extractLsb'_toNat]
  have hhigh : (x.extractLsb' 32 32).toNat = x.toNat / 256 ^ 4 % 256 ^ 4 := by
    simp [BitVec.extractLsb'_toNat, Nat.shiftRight_eq_div_pow]
  rw [toBytes_add 4 4, hlow, hhigh, toBytes_mod, toBytes_mod]

theorem toNat_payloadBytes (p : Params) : (payloadBytes p).toNat = 4 * p.frameSamples.toNat := by
  have houter : (payloadBytes p).toNat = (0#14 ++ p.frameSamples).toNat <<< 2 ||| (0#2).toNat :=
    BitVec.toNat_append _ _
  have hinner : (0#14 ++ p.frameSamples).toNat = (0#14).toNat <<< 16 ||| p.frameSamples.toNat :=
    BitVec.toNat_append _ _
  rw [houter, hinner]
  simp [Nat.shiftLeft_eq, Nat.mul_comm]

/-- The header words are the fields of the header, one after the other. -/
theorem wordBytes_headerWords (p : Params) (s : State) :
    wordBytes (headerWords p s) =
      (List.zipWith Code.encode iqStruct (headerOf p s).values).flatten := by
  -- The constants of the two sides agree byte for byte.
  have hconst : toBytes 4 SDR_IQ_MAGIC.toNat = Code.I.encode Protocol.SDR_IQ_MAGIC ∧
      toBytes 2 VERSION.toNat = Code.H.encode SDR_PROTOCOL_VERSION ∧
      toBytes 2 HEADER_LEN.toNat = Code.H.encode IQ_HEADER_SIZE ∧
      toBytes 2 FRAME_TYPE_IQ.toNat = Code.H.encode SDR_FRAME_IQ ∧
      toBytes 2 SAMPLE_FORMAT_SC16.toNat = Code.H.encode SDR_SAMPLE_SC16_LE ∧
      toBytes 4 0 ++ toBytes 4 0 = Code.Q.encode 0 := by decide
  rcases hconst with ⟨hmagic, hversion, hlen, htype, hformat, hzero⟩
  have hpayload : toBytes 4 (payloadBytes p).toNat = Code.I.encode (4 * p.frameSamples.toNat) := by
    have h := Code.encode_natCast Code.I (payloadBytes p).toNat
    rw [toNat_payloadBytes] at h ⊢
    exact h.symm
  -- Sixteen words of four bytes each, still packed as the packetizer packs them.
  have hwords : wordBytes (headerWords p s) =
      toBytes 4 SDR_IQ_MAGIC.toNat ++ (toBytes 4 (HEADER_LEN ++ VERSION).toNat ++
      (toBytes 4 (p.streamId ++ FRAME_TYPE_IQ).toNat ++ (toBytes 4 s.packetSeq.toNat ++
      (toBytes 4 (s.packetTimestamp.extractLsb' 0 32).toNat ++
      (toBytes 4 (s.packetTimestamp.extractLsb' 32 32).toNat ++
      (toBytes 4 (s.frequencyLatched.extractLsb' 0 32).toNat ++
      (toBytes 4 (s.frequencyLatched.extractLsb' 32 32).toNat ++
      (toBytes 4 s.rateLatched.toNat ++ (toBytes 4 s.bandwidthLatched.toNat ++
      (toBytes 4 (p.frameSamples ++ SAMPLE_FORMAT_SC16).toNat ++
      (toBytes 4 (s.gainLatched ++ packetFlags s).toNat ++ (toBytes 4 s.decimationLatched.toNat ++
      (toBytes 4 (payloadBytes p).toNat ++ (toBytes 4 0 ++ (toBytes 4 0 ++ []))))))))))))))) := rfl
  rw [hwords, toBytes_append_halves, toBytes_append_halves, toBytes_append_halves,
    toBytes_append_halves, hmagic, hversion, hlen, htype, hformat, hpayload]
  -- Two-field words split into their halves, 64-bit fields are joined from two words.
  simp only [iqStruct, SdrIqHeader.values, headerOf, List.zipWith, List.flatten_cons,
    List.flatten_nil, Code.encode_natCast, Code.encode_toInt, ← hzero]
  simp only [Code.I, Code.H, Code.Q, toBytes_extract_words, List.append_assoc]

/-- The receiver reads the header back from the sixteen header words. -/
theorem unpack_headerWords (p : Params) (s : State) :
    SdrIqHeader.unpack (wordBytes (headerWords p s)) = .ok (headerOf p s) := by
  -- Every register is as wide as the field it is packed into.
  have hfits : List.Forall₂ Code.Fits iqStruct (headerOf p s).values := by
    have hpayload : Code.I.Fits (4 * p.frameSamples.toNat) := by
      have h := Code.fits_toNat (c := Code.I) (payloadBytes p) rfl rfl
      rw [toNat_payloadBytes] at h
      exact h
    simp only [iqStruct, SdrIqHeader.values, headerOf, List.forall₂_cons, List.Forall₂.nil, and_true]
    refine ⟨by decide, by decide, by decide, by decide, Code.fits_toNat _ rfl rfl,
      Code.fits_toNat _ rfl rfl, Code.fits_toNat _ rfl rfl, Code.fits_toNat _ rfl rfl,
      Code.fits_toNat _ rfl rfl, Code.fits_toNat _ rfl rfl, by decide, Code.fits_toNat _ rfl rfl,
      Code.fits_toNat _ rfl rfl, Code.fits_toInt _, Code.fits_toNat _ rfl rfl, hpayload, by decide⟩
  -- The only check that is not about a constant is payload bytes against sample count.
  have hvalid : (headerOf p s).validate = .ok () := by
    refine validateFields_eq_ok.2 ⟨rfl, rfl, rfl, rfl, rfl, ?_⟩
    exact Int.mul_comm _ _
  have hpack : (headerOf p s).pack = .ok (wordBytes (headerWords p s)) := by
    rw [SdrIqHeader.pack_eq_ok, wordBytes_headerWords]
    exact ⟨hvalid, pack_of_fits hfits⟩
  simpa using SdrIqHeader.unpack_pack [] hpack

/-! ## Packet numbers -/

/-- ADC timestamp of packet `k` of a stream that begins at `t0`, in the 64 bits of the counter. -/
def stamp (p : Params) (t0 : BitVec 64) (d : BitVec 32) (k : Nat) : BitVec 64 :=
  BitVec.ofNat 64 (t0.toNat + k * (max d.toNat 1 * p.frameSamples.toNat))

/-- Between packets the registers are ready for packet `k`. -/
structure ReadyFor (p : Params) (t0 : BitVec 64) (d : BitVec 32) (k : Nat) (s : State) : Prop where
  seq : s.packetSeq = BitVec.ofNat 32 k
  next : s.nextPacketTimestamp = stamp p t0 d k
  first : s.firstPacket = decide (k = 0)

/-- The registers describe packet `k`, which the inputs `i` started. -/
structure Latched (p : Params) (t0 : BitVec 64) (d : BitVec 32) (k : Nat) (i : Inputs) (s : State) :
    Prop where
  seq : s.packetSeq = BitVec.ofNat 32 k
  timestamp : s.packetTimestamp = stamp p t0 d k
  frequency : s.frequencyLatched = i.frequencyHz
  rate : s.rateLatched = i.iqSampleRateHz
  bandwidth : s.bandwidthLatched = i.bandwidthHz
  decimation : s.decimationLatched = if d = 0 then 1 else d
  flags : s.flagsLatched = i.flags
  gain : s.gainLatched = i.gainDbQ8
  first : s.firstPacket = decide (k = 0)

/-- The IQ words of a packet. -/
def Packet.payload (k : Packet) : List (BitVec 32) :=
  k.samples ++ [k.final]

/-- Packets are numbered from zero and carry the words taken, in order.  `starts` are the inputs
that started a packet so far, `words` the IQ words taken. -/
structure Numbered (p : Params) (t0 : BitVec 64) (d : BitVec 32) (starts : List Inputs)
    (words : List (BitVec 32)) (s : State) (packets : List Packet) (current : List (BitVec 32)) :
    Prop where
  whole : ∀ k h, packets[k]? = some h → ∃ i, starts[k]? = some i ∧ Latched p t0 d k i h.regs
  idle : s.state = .idle → starts.length = packets.length ∧ ReadyFor p t0 d packets.length s
  busy : s.state = .header ∨ s.state = .payload →
    starts.length = packets.length + 1 ∧
      ∃ i, starts[packets.length]? = some i ∧ Latched p t0 d packets.length i s
  words_eq : words = packets.flatMap Packet.payload ++ current
  current_nil : s.state ≠ .payload → current = []

section Numbered

variable {p : Params} {t0 : BitVec 64} {d : BitVec 32} {starts : List Inputs}
  {words current : List (BitVec 32)} {s : State} {packets : List Packet} {i : Inputs}

theorem ReadyFor.drain {k : Nat} (h : ReadyFor p t0 d k s) : ReadyFor p t0 d k (drain s i) := by
  unfold IqPacketizer.drain
  split_ifs
  · exact ⟨h.seq, h.next, h.first⟩
  · exact h

theorem latched_drain {k : Nat} {j : Inputs} :
    Latched p t0 d k j (drain s i) ↔ Latched p t0 d k j s := by
  unfold IqPacketizer.drain
  split_ifs
  · constructor
    all_goals
      intro h
      exact ⟨h.seq, h.timestamp, h.frequency, h.rate, h.bandwidth, h.decimation, h.flags, h.gain,
        h.first⟩
  · exact Iff.rfl

/-- A decimation of zero counts as one. -/
theorem toNat_decimation (d : BitVec 32) : (if d = 0 then 1 else d).toNat = max d.toNat 1 := by
  by_cases h0 : d = 0
  · simp [h0]
  · have hne : d.toNat ≠ 0 := fun h => h0 (BitVec.eq_of_toNat_eq h)
    rw [if_neg h0]
    omega

/-- The timestamp advances by one packet's worth of ADC samples. -/
theorem stamp_succ (p : Params) (t0 : BitVec 64) (d : BitVec 32) (k : Nat) :
    stamp p t0 d k + (if d = 0 then 1 else d).setWidth 64 * p.frameSamples.setWidth 64 =
      stamp p t0 d (k + 1) := by
  have hstep : (if d = 0 then 1 else d).setWidth 64 * p.frameSamples.setWidth 64 =
      BitVec.ofNat 64 (max d.toNat 1 * p.frameSamples.toNat) := by
    apply BitVec.eq_of_toNat_eq
    rw [BitVec.toNat_mul, BitVec.toNat_setWidth, BitVec.toNat_setWidth, BitVec.toNat_ofNat,
      toNat_decimation]
    exact (Nat.mul_mod _ _ _).symm
  rw [hstep, stamp, stamp, ← BitVec.ofNat_add, Nat.succ_mul, Nat.add_assoc]

theorem latched_startPacket {k : Nat} (h : ReadyFor p t0 d k s) (hd : i.decimation = d) :
    Latched p t0 d k i (startPacket s i) :=
  ⟨h.seq, h.next, rfl, rfl, rfl, by rw [← hd]; rfl, rfl, rfl, h.first⟩

theorem readyFor_putPayload {k : Nat} {j : Inputs} (h : Latched p t0 d k j s)
    (hl : s.payloadCount = p.frameSamples - 1) : ReadyFor p t0 d (k + 1) (putPayload p s i) := by
  unfold putPayload
  rw [if_pos hl]
  refine ⟨?_, ?_, by simp⟩
  · show s.packetSeq + 1 = _
    rw [h.seq, BitVec.ofNat_add]
    rfl
  · show s.packetTimestamp + timestampStep p s = _
    rw [h.timestamp, timestampStep, h.decimation]
    exact stamp_succ p t0 d k

theorem latched_putPayload_more {k : Nat} {j : Inputs} (h : Latched p t0 d k j s)
    (hl : ¬s.payloadCount = p.frameSamples - 1) : Latched p t0 d k j (putPayload p s i) := by
  unfold putPayload
  rw [if_neg hl]
  exact ⟨h.seq, h.timestamp, h.frequency, h.rate, h.bandwidth, h.decimation, h.flags, h.gain, h.first⟩

theorem numbered_drain (h : Numbered p t0 d starts words s packets current) :
    Numbered p t0 d starts words (drain s i) packets current := by
  rcases drain_fields s i with ⟨hstate, _, _⟩
  refine ⟨h.whole, ?_, ?_, h.words_eq, ?_⟩
  · intro hs
    rw [hstate] at hs
    exact ⟨(h.idle hs).1, (h.idle hs).2.drain⟩
  · intro hs
    rw [hstate] at hs
    rcases h.busy hs with ⟨hlen, j, hj, hlatched⟩
    exact ⟨hlen, j, hj, latched_drain.2 hlatched⟩
  · rw [hstate]
    exact h.current_nil

theorem numbered_startPacket (h : Numbered p t0 d starts words s packets current)
    (hs : s.state = .idle) (hd : i.decimation = d) :
    Numbered p t0 d (starts ++ [i]) words (startPacket s i) packets [] := by
  rcases h.idle hs with ⟨hlen, hready⟩
  have hnil : current = [] := h.current_nil (by simp [hs])
  refine ⟨?_, ?_, ?_, ?_, fun _ => rfl⟩
  · intro k q hq
    rcases h.whole k q hq with ⟨j, hj, hlatched⟩
    -- The packet started now comes after every packet already numbered.
    have hk := (List.getElem?_eq_some_iff.1 hj).1
    exact ⟨j, by rw [List.getElem?_append_left hk, hj], hlatched⟩
  · simp [startPacket]
  · intro _
    refine ⟨by simp [hlen], i, ?_, latched_startPacket hready hd⟩
    rw [← hlen]
    simp
  · rw [h.words_eq, hnil]

theorem numbered_putHeader (h : Numbered p t0 d starts words s packets current)
    (hs : s.state = .header) : Numbered p t0 d starts words (putHeader p s) packets [] := by
  have hnil : current = [] := h.current_nil (by simp [hs])
  rcases h.busy (Or.inl hs) with ⟨hlen, j, hj, hl⟩
  refine ⟨h.whole, ?_, ?_, ?_, fun _ => rfl⟩
  · intro hidle
    -- The header leads on to the payload, never back to idle.
    simp only [putHeader] at hidle
    split_ifs at hidle
  · intro _
    exact ⟨hlen, j, hj, hl.seq, hl.timestamp, hl.frequency, hl.rate, hl.bandwidth, hl.decimation,
      hl.flags, hl.gain, hl.first⟩
  · rw [h.words_eq, hnil]

/-- The packet that closes keeps the registers `regs`, which describe the same packet. -/
theorem numbered_putPayload_last (regs : State)
    (h : Numbered p t0 d starts words s packets current) (hs : s.state = .payload)
    (hl : s.payloadCount = p.frameSamples - 1)
    (hregs : ∀ k j, Latched p t0 d k j s → Latched p t0 d k j regs) :
    Numbered p t0 d starts (words ++ [i.sAxisTdata]) (putPayload p s i)
      (packets ++ [{ regs := regs, samples := current, final := i.sAxisTdata }]) [] := by
  rcases h.busy (Or.inr hs) with ⟨hlen, j, hj, hlatched⟩
  have hidle : (putPayload p s i).state = .idle := by
    unfold putPayload
    rw [if_pos hl]
  refine ⟨?_, ?_, ?_, ?_, fun _ => rfl⟩
  · -- Older packets keep their number; the one that closes is number `packets.length`.
    intro k q hq
    by_cases hk : k < packets.length
    · rw [List.getElem?_append_left hk] at hq
      exact h.whole k q hq
    · rw [List.getElem?_append_right (by omega)] at hq
      have hzero : k - packets.length = 0 := by
        by_contra hne
        simp [hne] at hq
      have hkeq : k = packets.length := by omega
      simp [hkeq] at hq
      rw [← hq, hkeq]
      exact ⟨j, hj, hregs _ _ hlatched⟩
  · intro _
    rw [List.length_append, List.length_singleton]
    exact ⟨hlen, readyFor_putPayload hlatched hl⟩
  · simp [hidle]
  · rw [h.words_eq]
    simp [Packet.payload]

theorem numbered_putPayload_more (h : Numbered p t0 d starts words s packets current)
    (hs : s.state = .payload) (hl : ¬s.payloadCount = p.frameSamples - 1) :
    Numbered p t0 d starts (words ++ [i.sAxisTdata]) (putPayload p s i) packets
      (current ++ [i.sAxisTdata]) := by
  rcases h.busy (Or.inr hs) with ⟨hlen, j, hj, hlatched⟩
  have hstate : (putPayload p s i).state = .payload := by
    unfold putPayload
    rw [if_neg hl]
    exact hs
  refine ⟨h.whole, ?_, ?_, ?_, ?_⟩
  · simp [hstate]
  · intro _
    exact ⟨hlen, j, hj, latched_putPayload_more hlatched hl⟩
  · rw [h.words_eq, List.append_assoc]
  · simp [hstate]

/-- A streaming edge keeps the numbering. -/
theorem numbered_step (h : Numbered p t0 d starts words s packets current)
    (hlegal : s.state ≠ .other) (hi : Streaming i) (hd : i.decimation = d) :
    Numbered p t0 d (starts ++ started s i) (words ++ taken s i) (step p s i)
      (nextPackets p s i packets current) (nextCurrent p s i current) := by
  have hdrain : Numbered p t0 d starts words (drain s i) packets current := numbered_drain h
  rcases drain_fields s i with ⟨hstate, _, hcount⟩
  rw [step_streaming hi]
  by_cases hready : outReady s i = true
  · rw [if_pos hready]
    unfold advance nextPackets nextCurrent started taken sAxisTready
    rw [hstate]
    -- Follow the `case (state)`; what is recorded follows the same branches.
    simp only [hready, hi, if_true, true_and, Bool.and_true]
    cases hs : s.state with
    | idle =>
        simpa using numbered_startPacket (i := i) hdrain (by rw [hstate, hs]) hd
    | header =>
        simpa using numbered_putHeader hdrain (by rw [hstate, hs])
    | payload =>
        cases hv : i.sAxisTvalid with
        | false =>
            simpa using hdrain
        | true =>
            by_cases hl : s.payloadCount = p.frameSamples - 1
            · have hlast := numbered_putPayload_last (i := i) s hdrain
                (by rw [hstate, hs]) (by rw [hcount, hl]) (fun k j => latched_drain.1)
              simpa [hl] using hlast
            · have hmore := numbered_putPayload_more (i := i) hdrain (by rw [hstate, hs])
                (by rw [hcount]; exact hl)
              simp only [true_and, if_neg hl]
              simpa using hmore
    | other =>
        exact absurd hs hlegal
  · -- A held-up output starts no packet and takes no word.
    have hstarted : started s i = [] := by
      unfold started
      rw [if_neg (fun hc => hready hc.2.1)]
    have htaken : taken s i = [] := by
      simp [taken, sAxisTready, hready]
    rw [if_neg hready, nextPackets_of_not_ready hready, nextCurrent_of_not_ready hready, hstarted,
      htaken, List.append_nil, List.append_nil]
    exact hdrain

end Numbered

/-! ## What the receiver sees -/

/-- A packet that completes the one being sent. -/
def padded (p : Params) (s : State) (current : List (BitVec 32)) : Packet where
  regs := s
  samples := current ++ List.replicate (p.frameSamples.toNat - 1 - current.length) 0
  final := 0

/-- The whole packets, and the one being sent as if it were complete. -/
def paddedPackets (p : Params) (s : State) (packets : List Packet) (current : List (BitVec 32)) :
    List Packet :=
  match s.state with
  | .header => packets ++ [padded p s current]
  | .payload => packets ++ [padded p s current]
  | _ => packets

section Stream

variable {p : Params} {t0 : BitVec 64} {d : BitVec 32} {starts : List Inputs} {out : List Word}
  {words current : List (BitVec 32)} {s : State} {packets : List Packet}

theorem partialWords_prefix (hidx : s.state = .header → s.headerIndex.toNat < 16) :
    partialWords p s current <+: (padded p s current).words p := by
  unfold partialWords Packet.words padded
  cases hs : s.state with
  | idle =>
      exact List.nil_prefix
  | header =>
      have hlt := hidx hs
      have htake : List.range s.headerIndex.toNat <+: List.range 16 := by
        rw [← Nat.min_eq_left (Nat.le_of_lt hlt), ← List.take_range]
        exact List.take_prefix _ _
      rw [List.append_assoc]
      exact List.IsPrefix.trans ((htake.map _).map _) (List.prefix_append _ _)
  | payload =>
      refine ⟨(List.replicate (p.frameSamples.toNat - 1 - current.length) 0).map plain ++ [closing 0],
        ?_⟩
      simp
  | other =>
      exact List.nil_prefix

theorem out_prefix_padded (h : Framed p out s packets current) :
    out <+: (paddedPackets p s packets current).flatMap (Packet.words p) := by
  have hpartial : partialWords p s current <+: (padded p s current).words p :=
    partialWords_prefix h.index_lt
  rw [h.out_eq]
  unfold paddedPackets
  cases hs : s.state with
  | idle =>
      simp [partialWords, hs]
  | header =>
      simpa using hpartial
  | payload =>
      simpa using hpartial
  | other =>
      simp [partialWords, hs]

theorem full_padded (hN : p.frameSamples ≠ 0) (h : Framed p out s packets current)
    (hnil : s.state ≠ .payload → current = []) :
    ∀ k ∈ paddedPackets p s packets current, k.Full p := by
  have hpos := frameSamples_pos hN
  have hlen : current.length < p.frameSamples.toNat := by
    by_cases hs : s.state = .payload
    · rw [h.count_eq hs]
      exact h.count_lt hs
    · simpa [hnil hs] using hpos
  have hpad : (padded p s current).Full p := by
    simp only [Packet.Full, padded, List.length_append, List.length_replicate]
    omega
  have hall : ∀ k ∈ packets ++ [padded p s current], k.Full p := by
    intro k hk
    rcases List.mem_append.1 hk with hk | hk
    · exact h.full k hk
    · rw [List.mem_singleton.1 hk]
      exact hpad
  unfold paddedPackets
  cases s.state with
  | idle =>
      exact h.full
  | header =>
      exact hall
  | payload =>
      exact hall
  | other =>
      exact h.full

/-- Every packet, the one being sent included, has the registers of its number. -/
theorem latched_padded (h : Numbered p t0 d starts words s packets current) (k : Nat) (q : Packet)
    (hq : (paddedPackets p s packets current)[k]? = some q) :
    ∃ i, starts[k]? = some i ∧ Latched p t0 d k i q.regs := by
  -- While a packet is being sent, the padded one has the next number.
  have hbusy : s.state = .header ∨ s.state = .payload →
      (packets ++ [padded p s current])[k]? = some q →
      ∃ i, starts[k]? = some i ∧ Latched p t0 d k i q.regs := by
    intro hs hq
    rcases h.busy hs with ⟨_, j, hj, hlatched⟩
    rcases Nat.lt_trichotomy k packets.length with hk | hk | hk
    · rw [List.getElem?_append_left hk] at hq
      exact h.whole k q hq
    · simp [hk] at hq
      rw [← hq, hk]
      exact ⟨j, hj, hlatched⟩
    · rw [List.getElem?_append_right (by omega)] at hq
      simp [Nat.sub_ne_zero_of_lt hk] at hq
  unfold paddedPackets at hq
  cases hs : s.state with
  | idle =>
      rw [hs] at hq
      exact h.whole k q hq
  | header =>
      rw [hs] at hq
      exact hbusy (Or.inl hs) hq
  | payload =>
      rw [hs] at hq
      exact hbusy (Or.inr hs) hq
  | other =>
      rw [hs] at hq
      exact h.whole k q hq

theorem words_prefix_padded (h : Numbered p t0 d starts words s packets current) :
    words <+: (paddedPackets p s packets current).flatMap Packet.payload := by
  rw [h.words_eq]
  have hpartial : current <+: (padded p s current).payload := by
    unfold padded Packet.payload
    rw [List.append_assoc]
    exact List.prefix_append _ _
  unfold paddedPackets
  cases hs : s.state with
  | idle =>
      simp [h.current_nil (by simp [hs])]
  | header =>
      simpa using hpartial
  | payload =>
      simpa using hpartial
  | other =>
      simp [h.current_nil (by simp [hs])]

theorem length_words (h : Framed p out s packets current)
    (hwords : words = packets.flatMap Packet.payload ++ current) :
    words.length = packets.length * p.frameSamples.toNat + current.length := by
  rw [hwords, List.length_append, length_flatMap_blocks (B := p.frameSamples.toNat)]
  intro q hq
  simpa [Packet.payload, Packet.Full] using h.full q hq

/-- An IQ word that was put out has been taken. -/
theorem lt_length_words (h : Framed p out s packets current)
    (hwords : words = packets.flatMap Packet.payload ++ current) {k r : Nat}
    (hr : r < p.frameSamples.toNat)
    (hj : k * (16 + p.frameSamples.toNat) + (16 + r) < out.length) :
    k * p.frameSamples.toNat + r < words.length := by
  have hout : out.length =
      packets.length * (16 + p.frameSamples.toNat) + (partialWords p s current).length := by
    rw [h.out_eq, List.length_append,
      length_flatMap_blocks (fun q hq => Packet.length_words (h.full q hq))]
  have hlen := length_words h hwords
  -- Either the current packet has put out no IQ word yet, or it has put out all it has taken.
  have hpartial : (partialWords p s current).length ≤ 16 ∨
      (partialWords p s current).length = 16 + current.length ∧
        current.length < p.frameSamples.toNat := by
    unfold partialWords
    cases hs : s.state with
    | idle =>
        simp
    | header =>
        left
        simpa using Nat.le_of_lt (h.index_lt hs)
    | payload =>
        right
        rw [h.count_eq hs]
        exact ⟨by simp [headerWords, h.count_eq hs], h.count_lt hs⟩
    | other =>
        simp
  rcases Nat.lt_trichotomy k packets.length with hk | hk | hk
  · -- A whole packet: all its words have been taken.
    have hle : (k + 1) * p.frameSamples.toNat ≤ packets.length * p.frameSamples.toNat :=
      Nat.mul_le_mul_right _ hk
    rw [Nat.succ_mul] at hle
    omega
  · -- The packet being sent: the word is one of those taken for it.
    rw [hk] at hj ⊢
    omega
  · -- Nothing of a later packet has been put out.
    have hle : (packets.length + 1) * (16 + p.frameSamples.toNat) ≤
        k * (16 + p.frameSamples.toNat) := Nat.mul_le_mul_right _ hk
    rw [Nat.succ_mul] at hle
    omega

end Stream

/-- The header of packet `k` of a stream that begins at timestamp `t0` with decimation input `d`;
`i` are the inputs that started the packet. -/
def packetHeader (p : Params) (t0 : BitVec 64) (d : BitVec 32) (k : Nat) (i : Inputs) :
    SdrIqHeader where
  streamId := p.streamId.toNat
  seq := (k % 2 ^ 32 : Nat)
  adcTimestamp := ((t0.toNat + k * (max d.toNat 1 * p.frameSamples.toNat)) % 2 ^ 64 : Nat)
  frequencyHz := i.frequencyHz.toNat
  iqSampleRateHz := i.iqSampleRateHz.toNat
  bandwidthHz := i.bandwidthHz.toNat
  sampleCount := p.frameSamples.toNat
  flags := (i.flags ||| (if k = 0 then FLAG_DISCONTINUITY ||| FLAG_CONFIG_CHANGED else 0)).toNat
  gainDbQ8 := i.gainDbQ8.toInt
  decimation := (max d.toNat 1 : Nat)
  payloadBytes := 4 * p.frameSamples.toNat

theorem headerOf_latched {p : Params} {t0 : BitVec 64} {d : BitVec 32} {k : Nat} {i : Inputs}
    {s : State} (h : Latched p t0 d k i s) : headerOf p s = packetHeader p t0 d k i := by
  have hdecimation : s.decimationLatched.toNat = max d.toNat 1 := by
    rw [h.decimation, toNat_decimation]
  unfold headerOf packetHeader
  rw [hdecimation, h.seq, h.timestamp, h.frequency, h.rate, h.bandwidth, h.gain, packetFlags,
    h.flags, h.first, stamp, BitVec.toNat_ofNat, BitVec.toNat_ofNat]
  simp only [decide_eq_true_eq]

/-- The stream `ws` is what the receiver expects of packets numbered from zero, started by the
inputs `starts` and filled with the IQ words `words`. -/
structure SpeaksProtocol (p : Params) (t0 : BitVec 64) (d : BitVec 32) (ws : List Word)
    (starts : List Inputs) (words : List (BitVec 32)) : Prop where
  /-- `m_axis_tlast` closes each block of `16 + FRAME_SAMPLES` words. -/
  last : ∀ j w, ws[j]? = some w →
    w.keep = 0xf ∧
      (w.last = true ↔ j % (16 + p.frameSamples.toNat) = 16 + p.frameSamples.toNat - 1)
  /-- The first sixteen words of block `k` are read as the header of packet `k`. -/
  header : ∀ k, k * (16 + p.frameSamples.toNat) + 16 ≤ ws.length →
    ∃ i, starts[k]? = some i ∧
      SdrIqHeader.unpack
          (wordBytes (((ws.drop (k * (16 + p.frameSamples.toNat))).take 16).map Word.data)) =
        .ok (packetHeader p t0 d k i)
  /-- The other words of block `k` are the IQ words taken for packet `k`. -/
  payload : ∀ k r w, r < p.frameSamples.toNat →
    ws[k * (16 + p.frameSamples.toNat) + (16 + r)]? = some w →
      words[k * p.frameSamples.toNat + r]? = some w.data

namespace Packet

variable {p : Params} {k : Packet}

theorem words_eq (p : Params) (k : Packet) :
    k.words p = (headerWords p k.regs ++ k.samples).map plain ++ [closing k.final] := by
  simp [words]

theorem getElem?_words (hk : k.Full p) {r : Nat} {w : Word} (hw : (k.words p)[r]? = some w) :
    w.keep = 0xf ∧ (w.last = true ↔ r = 16 + p.frameSamples.toNat - 1) := by
  have hlen : ((headerWords p k.regs ++ k.samples).map plain).length =
      16 + p.frameSamples.toNat - 1 := by
    unfold Full at hk
    simp [headerWords]
    omega
  rw [words_eq] at hw
  -- All words but the last are plain.
  by_cases hr : r < 16 + p.frameSamples.toNat - 1
  · rw [List.getElem?_append_left (by omega), List.getElem?_map] at hw
    rcases Option.map_eq_some_iff.1 hw with ⟨x, _, rfl⟩
    exact ⟨rfl, by simp [plain]; omega⟩
  · have hlt := (List.getElem?_eq_some_iff.1 hw).1
    rw [List.length_append, hlen] at hlt
    have heq : r = 16 + p.frameSamples.toNat - 1 := by
      simp at hlt
      omega
    rw [List.getElem?_append_right (by omega), hlen, heq] at hw
    simp at hw
    rw [← hw]
    exact ⟨rfl, by simp [closing, heq]⟩

theorem take_words (p : Params) (k : Packet) :
    ((k.words p).take 16).map Word.data = headerWords p k.regs := by
  have hlen : ((headerWords p k.regs).map plain).length = 16 := by simp [headerWords]
  rw [words, List.append_assoc, List.take_left' hlen, List.map_map]
  exact List.map_id _

theorem getElem?_words_payload (p : Params) (k : Packet) (r : Nat) :
    ((k.words p)[16 + r]?).map Word.data = k.payload[r]? := by
  have hlen : ((headerWords p k.regs).map plain).length = 16 := by simp [headerWords]
  have hpayload : (k.samples.map plain ++ [closing k.final]).map Word.data = k.payload := by
    have hid : Word.data ∘ plain = id := rfl
    rw [List.map_append, List.map_map, hid, List.map_id]
    rfl
  rw [words, List.append_assoc, List.getElem?_append_right (by omega), hlen, Nat.add_sub_cancel_left,
    ← List.getElem?_map, hpayload]

end Packet

theorem speaksProtocol_of_numbered {p : Params} {t0 : BitVec 64} {d : BitVec 32}
    {starts : List Inputs} {out ws : List Word} {words current : List (BitVec 32)} {s : State}
    {packets : List Packet} (hN : p.frameSamples ≠ 0) (hf : Framed p out s packets current)
    (hn : Numbered p t0 d starts words s packets current) (hws : ws <+: out) :
    SpeaksProtocol p t0 d ws starts words := by
  have hfull := full_padded hN hf hn.current_nil
  have hblock : ∀ q ∈ paddedPackets p s packets current,
      (q.words p).length = 16 + p.frameSamples.toNat :=
    fun q hq => Packet.length_words (hfull q hq)
  -- Completing the packet being sent turns the stream into a prefix of equal blocks.
  have hpre : ws <+: (paddedPackets p s packets current).flatMap (Packet.words p) :=
    hws.trans (out_prefix_padded hf)
  refine ⟨?_, ?_, ?_⟩
  · intro j w hw
    have hj := (List.getElem?_eq_some_iff.1 hw).1
    have hmod : j % (16 + p.frameSamples.toNat) < 16 + p.frameSamples.toNat :=
      Nat.mod_lt _ (by omega)
    -- Word `j` is word `j % B` of block `j / B`.
    have hsplit : j / (16 + p.frameSamples.toNat) * (16 + p.frameSamples.toNat) +
        j % (16 + p.frameSamples.toNat) = j := Nat.div_add_mod' _ _
    rw [← getElem?_of_prefix hpre hj, ← hsplit, getElem?_flatMap_blocks hblock hmod] at hw
    rcases Option.bind_eq_some_iff.1 hw with ⟨q, hq, hw⟩
    exact Packet.getElem?_words (hfull q (List.mem_of_getElem? hq)) hw
  · -- The header has been put out whole, so its packet was started.
    intro k hk
    rcases take_drop_of_prefix_blocks hpre hblock (by omega) (by omega) hk with ⟨q, hq, htake⟩
    rcases latched_padded hn k q hq with ⟨i, hi, hlatched⟩
    refine ⟨i, hi, ?_⟩
    rw [htake, Packet.take_words, unpack_headerWords, headerOf_latched hlatched]
  · intro k r w hr hw
    have hj := (List.getElem?_eq_some_iff.1 hw).1
    -- The word was taken before it was put out, so it is found at the same place in `words`.
    have hlt := lt_length_words hf hn.words_eq hr (Nat.lt_of_lt_of_le hj hws.length_le)
    rw [← getElem?_of_prefix hpre hj, getElem?_flatMap_blocks hblock (by omega)] at hw
    rw [← getElem?_of_prefix (words_prefix_padded hn) hlt, getElem?_flatMap_blocks ?_ hr]
    · rcases Option.bind_eq_some_iff.1 hw with ⟨q, hq, hw⟩
      have hword := Packet.getElem?_words_payload p q r
      rw [hw] at hword
      simpa [hq] using hword.symm
    · intro q hq
      simpa [Packet.payload, Packet.Full] using hfull q hq

/-- The states a stream begins in: out of reset, or after a change of configuration that left no
word waiting in the output register; `t0` is the timestamp the stream begins at. -/
def Begins (p : Params) (s : State) (t0 : BitVec 64) : Prop :=
  (s = resetState ∧ t0 = 0) ∨
    ∃ (before : State) (i : Inputs), i.rst = false ∧ i.enable = true ∧ i.configChanged = true ∧
      s = step p before i ∧ s.mAxisTvalid = false ∧ t0 = i.adcTimestampSeed

theorem begins_spec {p : Params} {s : State} {t0 : BitVec 64} (h : Begins p s t0) (d : BitVec 32) :
    s.mAxisTvalid = false ∧ s.state = .idle ∧ ReadyFor p t0 d 0 s := by
  rcases h with ⟨rfl, rfl⟩ | ⟨before, i, hrst, hen, hcfg, rfl, hvalid, rfl⟩
  · refine ⟨rfl, rfl, rfl, ?_, rfl⟩
    simp [stamp, resetState]
  · have hstep : step p before i = reconfigure (drain before i) i := by
      simp [step, hrst, hen, hcfg]
    refine ⟨hvalid, ?_, ?_, ?_, ?_⟩
    · rw [hstep]
      rfl
    · rw [hstep]
      rfl
    · rw [hstep]
      simp [stamp, reconfigure]
    · rw [hstep]
      rfl

/-- Whatever the stalls on both sides, the packetizer's output is what the receiver parses. -/
theorem accepted_speaks_protocol (p : Params) (hN : p.frameSamples ≠ 0) (d : BitVec 32) (s : State)
    (t0 : BitVec 64) (hbegin : Begins p s t0) (is : List Inputs)
    (his : ∀ i ∈ is, Streaming i ∧ i.decimation = d) :
    SpeaksProtocol p t0 d (emits (step p) accepted s is) (emits (step p) started s is)
      (emits (step p) taken s is) := by
  rcases begins_spec hbegin d with ⟨hvalid, hidle, hready⟩
  have hall : Along (step p) (fun _ i => Streaming i ∧ i.decimation = d) s is :=
    along_of_forall (fun _ i hi => his i hi)
  have hinv : ∃ packets current,
      Framed p (emits (step p) (put p) s is) (runFrom (step p) s is) packets current ∧
        Numbered p t0 d (emits (step p) started s is) (emits (step p) taken s is)
          (runFrom (step p) s is) packets current := by
    refine history_invariant
      (P := fun is' s' => ∃ packets current,
        Framed p (emits (step p) (put p) s is') s' packets current ∧
          Numbered p t0 d (emits (step p) started s is') (emits (step p) taken s is') s' packets
            current)
      ⟨[], [], ?_, ?_⟩ ?_ is hall
    · -- No packet, nothing put out, nothing latched.
      refine ⟨?_, ?_, ?_, ?_, ?_, ?_, ?_, ?_⟩
      all_goals simp [partialWords, hidle]
    · refine ⟨?_, ?_, ?_, ?_, ?_⟩
      · simp
      · intro _
        exact ⟨rfl, hready⟩
      · simp [hidle]
      · simp
      · simp
    · rintro es i ⟨packets, current, hf, hn⟩ ⟨hi, hd⟩
      rw [emits_snoc, emits_snoc, emits_snoc]
      exact ⟨_, _, framed_step hN hf hi, numbered_step hn hf.legal hi hd⟩
  rcases hinv with ⟨packets, current, hf, hn⟩
  exact speaksProtocol_of_numbered hN hf hn
    (accepted_prefix_put p hvalid (hall.mono (fun _ _ h => h.1.1)))

/-- Two packets of two IQ words each, with the output always ready. -/
theorem accepted_speaks_protocol_two_packets :
    (emits (step ⟨7, 2⟩) accepted resetState (List.replicate 40 streamingInputs)).length = 36 ∧
      SpeaksProtocol ⟨7, 2⟩ 0 250
        (emits (step ⟨7, 2⟩) accepted resetState (List.replicate 40 streamingInputs))
        (emits (step ⟨7, 2⟩) started resetState (List.replicate 40 streamingInputs))
        (emits (step ⟨7, 2⟩) taken resetState (List.replicate 40 streamingInputs)) := by
  refine ⟨by decide, ?_⟩
  refine accepted_speaks_protocol ⟨7, 2⟩ (by decide) 250 resetState 0 (Or.inl ⟨rfl, rfl⟩) _ ?_
  intro i hi
  rw [List.eq_of_mem_replicate hi]
  exact ⟨by decide, rfl⟩

end IqPacketizer
end Fpga
end Sdr
