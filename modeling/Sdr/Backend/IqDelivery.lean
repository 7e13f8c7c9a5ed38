import Sdr.Backend.LossAccounting
import Sdr.Bridge.IqDma
import Sdr.Fpga.EventFlags
import Sdr.Fpga.IqLink
import Sdr.Fpga.LinkProgress

/-!
# IqDelivery — IQ samples from the down-converter to the receiver

The whole way of the IQ data: the packetizer frames the words of the down-converter, the FIFO carries
them to the AXI clock, the DMA fills a buffer up to `tlast`, the bridge sends the buffer as it is, and
`UdpReceivers._handle_iq` takes it apart again.  The network may lose datagrams.

Nothing on this way knows of anything but its neighbours.  `link_datagrams` says that the receiver gets
back the samples, and `link_accounted` that its counters tell exactly what the network has lost.
-/

namespace Sdr
namespace Backend

open Lib Lib.Struct Protocol
open Fpga.IqPacketizer (Params Packet Word Latched wordBytes headerWords packetHeader groups)

/-! ## The receiver -/

/-- `UdpReceivers._handle_iq`: `none` for a datagram that is too short to look at. -/
def handleIq (data : List Byte) : Except PacketError (Option (SdrIqHeader × List Byte)) :=
  if data.length < IQ_HEADER_SIZE then
    .ok none
  else
    match SdrIqHeader.unpack (data.take IQ_HEADER_SIZE) with
    | .error e => .error e
    | .ok header =>
        .ok (some (header, (data.drop IQ_HEADER_SIZE).take header.payloadBytes.toNat))

/-- What `on_iq` is called with; a datagram that raises goes to `on_error`. -/
def receivedIq (data : List Byte) : Option (SdrIqHeader × List Byte) :=
  match handleIq data with
  | .ok received => received
  | .error _ => none

/-- The statistics after a datagram. -/
def AppState.receive (state : AppState) (data : List Byte) : AppState :=
  match receivedIq data with
  | some (header, _) => state.ingested header
  | none => state

theorem AppState.runFrom_receive (state : AppState) (grams : List (List Byte)) :
    runFrom receive state grams =
      runFrom ingested state (grams.filterMap fun data => (receivedIq data).map Prod.fst) := by
  induction grams generalizing state with
  | nil =>
      rfl
  | cons data grams ih =>
      rw [runFrom_cons, ih, receive]
      cases h : receivedIq data <;> simp [h]

/-! ## One datagram -/

/-- The buffer of the DMA after the words of a group, which the bridge sends unchanged. -/
def datagram (group : List Word) : List Byte :=
  wordBytes (group.map Word.data)

def datagrams (words : List Word) : List (List Byte) :=
  (groups [] words).map datagram

theorem length_wordBytes (ws : List (BitVec 32)) : (wordBytes ws).length = 4 * ws.length := by
  induction ws with
  | nil =>
      rfl
  | cons w ws ih =>
      simp only [wordBytes, List.flatMap_cons, List.length_append, length_toBytes,
        List.length_cons] at ih ⊢
      omega

theorem datagram_words (p : Params) (k : Packet) :
    datagram (k.words p) = wordBytes (headerWords p k.regs) ++ wordBytes k.payload := by
  have hdata : (k.words p).map Word.data = headerWords p k.regs ++ k.payload := by
    have hid : Word.data ∘ Fpga.IqPacketizer.plain = id := rfl
    rw [Packet.words, List.map_append, List.map_append, List.map_map, List.map_map, hid, List.map_id,
      List.map_id, List.append_assoc]
    rfl
  rw [datagram, hdata]
  exact List.flatMap_append

section Datagram

variable {p : Params} {k : Packet} {t0 : BitVec 64} {d : BitVec 32} {n : Nat}
  {i : Fpga.IqPacketizer.Inputs}

theorem length_datagram (hfull : k.Full p) :
    (datagram (k.words p)).length = 64 + 4 * p.frameSamples.toNat := by
  have hpayload : k.payload.length = p.frameSamples.toNat := by
    rw [← hfull]
    simp [Packet.payload]
  rw [datagram_words, List.length_append, length_wordBytes, length_wordBytes, hpayload]
  simp [headerWords]

/-- The receiver reads a packet back as its header and its samples. -/
theorem handleIq_datagram (hfull : k.Full p) (hlatched : Latched p t0 d n i k.regs) :
    handleIq (datagram (k.words p)) =
      .ok (some (packetHeader p t0 d n i, wordBytes k.payload)) := by
  have hsize : (wordBytes (headerWords p k.regs)).length = IQ_HEADER_SIZE := by
    rw [length_wordBytes, headerWords, List.length_map, List.length_range]
    rfl
  have hpayload : (wordBytes k.payload).length = 4 * p.frameSamples.toNat := by
    rw [length_wordBytes, ← hfull]
    simp [Packet.payload]
  have hunpack : SdrIqHeader.unpack (wordBytes (headerWords p k.regs)) =
      .ok (packetHeader p t0 d n i) := by
    rw [Fpga.IqPacketizer.unpack_headerWords, Fpga.IqPacketizer.headerOf_latched hlatched]
  have hlong : ¬(wordBytes (headerWords p k.regs) ++ wordBytes k.payload).length <
      IQ_HEADER_SIZE := by
    rw [List.length_append, hsize]
    omega
  rw [datagram_words, handleIq, if_neg hlong, List.take_left' hsize, List.drop_left' hsize, hunpack]
  have hbytes : (packetHeader p t0 d n i).payloadBytes.toNat = 4 * p.frameSamples.toNat := by
    simp only [packetHeader]
    omega
  simp only [hbytes]
  rw [← hpayload, List.take_length]

end Datagram

/-! ## The link -/

section Link

open Fpga (IqLink.step IqLink.delivered IqLink.taken IqLink.started IqLink.Streaming
  IqLink.Lockstep SdrPlCore.packetizerParams)

variable {d : BitVec 16} {s : Fpga.IqLink.State} {ts : List Fpga.IqLink.Tick}
  {mem : BitVec 10 → BitVec 37} {t0 : BitVec 64}

/-- The datagram `k` of a stream that the inputs `starts` started and the IQ words `words` filled. -/
def IsPacket (t0 : BitVec 64) (d : BitVec 16) (starts : List Fpga.IqPacketizer.Inputs)
    (words : List (BitVec 32)) (k : Nat) (data : List Byte) : Prop :=
  data.length = Bridge.sdrIqPacketBytes ∧
    ∃ i, starts[k]? = some i ∧
      handleIq data =
        .ok (some (packetHeader SdrPlCore.packetizerParams t0 (d.setWidth 32) k i,
          wordBytes ((words.drop (k * 256)).take 256)))

/-- A whole packet of a numbered stream, as a datagram. -/
theorem isPacket_of_numbered {starts : List Fpga.IqPacketizer.Inputs} {words current : List (BitVec 32)}
    {iq : Fpga.IqPacketizer.State} {packets : List Packet}
    (hfull : ∀ q ∈ packets, q.Full SdrPlCore.packetizerParams)
    (hn : Fpga.IqPacketizer.Numbered SdrPlCore.packetizerParams t0 (d.setWidth 32) starts words iq
      packets current) {k : Nat} {q : Packet} (hq : packets[k]? = some q) :
    IsPacket t0 d starts words k (datagram (q.words SdrPlCore.packetizerParams)) := by
  have hqfull := hfull q (List.mem_of_getElem? hq)
  rcases hn.whole k q hq with ⟨i, hi, hlatched⟩
  refine ⟨(length_datagram hqfull).trans (by decide), i, hi, ?_⟩
  -- The samples of packet `k` are the block `k` of the words taken.
  have hblocks : ∀ x ∈ packets, (Packet.payload x).length = 256 := by
    intro x hx
    have hx := hfull x hx
    simp only [Packet.Full] at hx
    rw [Packet.payload, List.length_append]
    exact hx
  have hlt : k < packets.length := (List.getElem?_eq_some_iff.1 hq).1
  have hcover : k * 256 ≤ (packets.flatMap Packet.payload).length := by
    rw [length_flatMap_blocks hblocks]
    exact Nat.mul_le_mul_right _ (Nat.le_of_lt hlt)
  have hpayload : (words.drop (k * 256)).take 256 = q.payload := by
    rw [hn.words_eq, List.drop_append_of_le_length hcover, drop_flatMap_blocks hblocks,
      List.drop_eq_getElem_cons hlt, (List.getElem?_eq_some_iff.1 hq).2, List.flatMap_cons,
      List.append_assoc, List.take_left' (hblocks q (List.mem_of_getElem? hq))]
  rw [hpayload]
  exact handleIq_datagram hqfull hlatched

theorem link_datagrams (hempty : s.fifo = Fpga.AxisAsyncFifo.resetState mem)
    (hbegin : Fpga.IqPacketizer.Begins SdrPlCore.packetizerParams s.core.iq t0)
    (hts : ∀ t ∈ ts, IqLink.Streaming d t) {k : Nat} {data : List Byte}
    (hk : (datagrams (emits IqLink.step IqLink.delivered s ts))[k]? = some data) :
    IsPacket t0 d (emits IqLink.step IqLink.started s ts) (emits IqLink.step IqLink.taken s ts) k
      data := by
  rcases Fpga.IqLink.groups_delivered hempty hbegin hts with
    ⟨packets, current, hfull, hn, hgroups⟩
  rw [datagrams, List.getElem?_map] at hk
  rcases Option.map_eq_some_iff.1 hk with ⟨g, hg, rfl⟩
  have hmem : (packets.map (Packet.words SdrPlCore.packetizerParams))[k]? = some g := by
    have hget := getElem?_of_prefix hgroups (List.getElem?_eq_some_iff.1 hg).1
    rw [hget, hg]
  rw [List.getElem?_map] at hmem
  rcases Option.map_eq_some_iff.1 hmem with ⟨q, hq, rfl⟩
  exact isPacket_of_numbered hfull hn hq

/-- The samples per packet time step, in ADC ticks. -/
def packetDelta (d : BitVec 16) : Int :=
  (max d.toNat 1 * 256 : Nat)

theorem packetDelta_bounds (d : BitVec 16) : 0 < packetDelta d ∧ packetDelta d < 2 ^ 24 := by
  have hd := d.isLt
  unfold packetDelta
  constructor
  all_goals
    push_cast
    omega

theorem sentPacket_packetHeader (t0 : BitVec 64) (d : BitVec 16) (n : Nat)
    (i : Fpga.IqPacketizer.Inputs) :
    SentPacket 0 t0.toNat (packetDelta d) n
      (packetHeader SdrPlCore.packetizerParams t0 (d.setWidth 32) n i) := by
  have hrate : (d.setWidth 32).toNat = d.toNat := BitVec.toNat_setWidth_of_le (by decide)
  have hframe : SdrPlCore.packetizerParams.frameSamples.toNat = 256 := rfl
  refine ⟨?_, ?_, ?_⟩
  · simp only [packetHeader]
    push_cast
    rw [zero_add]
  · simp only [packetHeader, hrate, hframe, packetDelta]
    push_cast
    rfl
  · simp only [packetHeader, SdrIqHeader.nextTimestampDelta, hrate, hframe, packetDelta]
    push_cast
    rfl

/-- A next packet that arrives is after the last one, and fewer are missing than a counter can count. -/
def Later (n m : Nat) : Prop :=
  n < m ∧ m - n < 2 ^ 32

theorem Later.arrivesAfter {n m : Nat} (h : Later n m) (d : BitVec 16) :
    ArrivesAfter (packetDelta d) n m := by
  rcases packetDelta_bounds d with ⟨hpos, hlt⟩
  have hgap : ((m : Int) - n) < 2 ^ 32 := by
    have := h.2
    omega
  refine ⟨h.1, h.2, ?_⟩
  calc
    ((m : Int) - n) * packetDelta d ≤ 2 ^ 32 * packetDelta d :=
      mul_le_mul_of_nonneg_right (le_of_lt hgap) (le_of_lt hpos)
    _ < 2 ^ 64 := by omega

/-- A stream that has no statistics yet, after the first packets of it that arrive. -/
theorem accounted_of_sent {seq timestamp delta : Int} (hdelta : 0 < delta) {streamId : Int}
    {state : AppState} (hnew : state.streams.lookup streamId = none) {first : Nat} {ns : List Nat}
    {headers : List SdrIqHeader} (hchain : List.IsChain (ArrivesAfter delta) (first :: ns))
    (hsent : List.Forall₂ (SentPacket seq timestamp delta) (first :: ns) headers)
    (hown : ∀ header ∈ headers, header.streamId = streamId) :
    ∃ stats, (runFrom AppState.ingested state headers).streams.lookup streamId = some stats ∧
      Accounted (first :: ns) headers stats := by
  have hfresh : state.statsOf streamId = { streamId := streamId } := by
    rw [AppState.statsOf, hnew]
    rfl
  have hall : AppState.ofStream streamId headers = headers :=
    List.filter_eq_self.2 (fun header hheader => decide_eq_true (hown header hheader))
  rw [AppState.lookup_runFrom, hall, hfresh]
  obtain ⟨header, rest, hfirst, hrest, rfl⟩ := List.forall₂_cons_left_iff.1 hsent
  have hseq : (({ streamId := streamId } : StreamStats).ingest header).lastSeq =
      some ((seq + first) % 2 ^ 32) := congrArg some hfirst.seq
  have hcounts := StreamStats.counts_runFrom hdelta hseq (congrArg some hfirst.adcTimestamp) hchain
    hrest
  obtain ⟨hor, hfifo⟩ := StreamStats.ingest_flags ({ streamId := streamId } : StreamStats) header
  refine ⟨_, if_neg (List.cons_ne_nil _ _), ?_⟩
  rw [runFrom_cons]
  refine ⟨?_, ?_, ?_, ?_, ?_⟩
  · rw [hcounts.packets, List.length_cons, Nat.add_comm]
    rfl
  · rw [hcounts.lostPackets, List.getLastD_cons, List.length_cons, List.headD_cons]
    simp only [StreamStats.ingest, StreamStats.lostBefore]
    push_cast
    omega
  · rw [hcounts.timestampGaps]
    simp [StreamStats.ingest, StreamStats.gapBefore]
  · rw [hcounts.adcOrCount, hor, List.countP_cons, Nat.zero_add, Nat.add_comm]
  · rw [hcounts.fifoOverflowCount, hfifo, List.countP_cons, Nat.zero_add, Nat.add_comm]

/-- The datagrams `ns` of a stream, in this order. -/
def arrived (grams : List (List Byte)) (ns : List Nat) : List (List Byte) :=
  ns.map (fun n => grams.getD n [])

/-- What arrives of a stream of packets is read back as it was sent, and accounted for. -/
theorem packets_accounted {starts : List Fpga.IqPacketizer.Inputs} {words : List (BitVec 32)}
    {grams : List (List Byte)}
    (hgrams : ∀ n data, grams[n]? = some data → IsPacket t0 d starts words n data)
    {state : AppState} (hnew : state.streams.lookup 0 = none) {first : Nat} {ns : List Nat}
    (hlater : List.IsChain Later (first :: ns)) (hsent : ∀ n ∈ first :: ns, n < grams.length) :
    ∃ header : Nat → SdrIqHeader,
      (∀ n ∈ first :: ns,
        receivedIq (grams.getD n []) =
            some (header n, wordBytes ((words.drop (n * 256)).take 256)) ∧
          ∃ i, starts[n]? = some i ∧
            header n = packetHeader SdrPlCore.packetizerParams t0 (d.setWidth 32) n i) ∧
        ∃ stats,
          (runFrom AppState.receive state (arrived grams (first :: ns))).streams.lookup 0 =
              some stats ∧
            Accounted (first :: ns) ((first :: ns).map header) stats := by
  -- What the receiver makes of the datagram with number `n`.
  let header := fun n => ((receivedIq (grams.getD n [])).map Prod.fst).getD {}
  have hpacket : ∀ n ∈ first :: ns,
      receivedIq (grams.getD n []) =
          some (header n, wordBytes ((words.drop (n * 256)).take 256)) ∧
        ∃ i, starts[n]? = some i ∧
          header n = packetHeader SdrPlCore.packetizerParams t0 (d.setWidth 32) n i := by
    intro n hn
    obtain ⟨data, hget⟩ : ∃ data, grams[n]? = some data :=
      ⟨_, List.getElem?_eq_getElem (hsent n hn)⟩
    rcases (hgrams n data hget).2 with ⟨i, hi, hhandle⟩
    have hreceived : receivedIq (grams.getD n []) =
        some (packetHeader SdrPlCore.packetizerParams t0 (d.setWidth 32) n i,
          wordBytes ((words.drop (n * 256)).take 256)) := by
      rw [List.getD_eq_getElem?_getD, hget, Option.getD_some, receivedIq, hhandle]
    have hheader : header n = packetHeader SdrPlCore.packetizerParams t0 (d.setWidth 32) n i := by
      simp only [header, hreceived, Option.map_some, Option.getD_some]
    rw [hheader]
    exact ⟨hreceived, i, hi, rfl⟩
  have hheaders : (arrived grams (first :: ns)).filterMap
      (fun data => (receivedIq data).map Prod.fst) = (first :: ns).map header := by
    rw [arrived, List.filterMap_map, ← List.filterMap_eq_map]
    refine List.filterMap_congr ?_
    intro n hn
    simp only [Function.comp_apply, (hpacket n hn).1, Option.map_some]
  have hforall : List.Forall₂ (SentPacket 0 t0.toNat (packetDelta d)) (first :: ns)
      ((first :: ns).map header) := by
    rw [List.forall₂_map_right_iff, List.forall₂_same]
    intro n hn
    rcases (hpacket n hn).2 with ⟨i, -, heq⟩
    rw [heq]
    exact sentPacket_packetHeader t0 d n i
  have hown : ∀ h ∈ (first :: ns).map header, h.streamId = 0 := by
    intro h hh
    rcases List.mem_map.1 hh with ⟨n, hn, rfl⟩
    rcases (hpacket n hn).2 with ⟨i, -, heq⟩
    rw [heq]
    rfl
  refine ⟨header, hpacket, ?_⟩
  rw [AppState.runFrom_receive, hheaders]
  exact accounted_of_sent (packetDelta_bounds d).1 hnew
    (hlater.imp fun _ _ h => h.arrivesAfter d) hforall hown

/-- Whatever part of a stream arrives, the receiver has the IQ words of just these packets, byte for
byte, and its counters say how many of the others are missing and in how many places. -/
theorem link_accounted (hempty : s.fifo = Fpga.AxisAsyncFifo.resetState mem)
    (hbegin : Fpga.IqPacketizer.Begins SdrPlCore.packetizerParams s.core.iq t0)
    (hts : ∀ t ∈ ts, IqLink.Streaming d t) {state : AppState}
    (hnew : state.streams.lookup 0 = none) {first : Nat} {ns : List Nat}
    (hlater : List.IsChain Later (first :: ns))
    (hsent : ∀ n ∈ first :: ns,
      n < (datagrams (emits IqLink.step IqLink.delivered s ts)).length) :
    ∃ header : Nat → SdrIqHeader,
      (∀ n ∈ first :: ns,
        receivedIq ((datagrams (emits IqLink.step IqLink.delivered s ts)).getD n []) =
            some (header n,
              wordBytes (((emits IqLink.step IqLink.taken s ts).drop (n * 256)).take 256)) ∧
          SentPacket 0 t0.toNat (packetDelta d) n (header n)) ∧
        ∃ stats,
          (runFrom AppState.receive state
              (arrived (datagrams (emits IqLink.step IqLink.delivered s ts))
                (first :: ns))).streams.lookup 0 = some stats ∧
            Accounted (first :: ns) ((first :: ns).map header) stats := by
  rcases packets_accounted (fun n data hget => link_datagrams hempty hbegin hts hget) hnew hlater
    hsent with ⟨header, hpacket, haccounted⟩
  refine ⟨header, ?_, haccounted⟩
  intro n hn
  rcases hpacket n hn with ⟨hreceived, i, -, heq⟩
  refine ⟨hreceived, ?_⟩
  rw [heq]
  exact sentPacket_packetHeader t0 d n i

/-- Both clocks rise at every instant, and the DMA is always ready. -/
def linkTick : Fpga.IqLink.Tick where
  adcClk := true
  axiClk := true
  core := Fpga.SdrPlCore.streamingInputs
  ctrlRst := false
  mAxisIqTready := true
  sSees := 0
  mSees := 0

def linkStart : Fpga.IqLink.State where
  core := Fpga.SdrPlCore.resetState
  fifo := Fpga.AxisAsyncFifo.resetState (fun _ => 0)

theorem lockstep_linkTick (n : Nat) : ∀ t ∈ List.replicate n linkTick, IqLink.Lockstep 1 t := by
  intro t ht
  rw [List.eq_of_mem_replicate ht]
  exact ⟨rfl, rfl, rfl, rfl, ⟨by decide, rfl, by decide, rfl⟩⟩

/-- After forty instants the pipeline is filled, and the others are enough for five packets. -/
theorem five_datagrams :
    5 ≤ (datagrams (emits IqLink.step IqLink.delivered linkStart
      (List.replicate 3000 linkTick))).length := by
  obtain ⟨c, hrep, hnear, -⟩ := Fpga.IqLink.lockstep_run (s := linkStart) rfl rfl
    (lockstep_linkTick 40)
  have hoften := Fpga.IqLink.closed_often ⟨c, hrep, hnear⟩ (by decide +kernel)
    (lockstep_linkTick 2960)
  have hbound : Fpga.SdrPlCore.closeBound 1 = 277 := by decide
  rw [hbound, List.length_replicate] at hoften
  have hsplit : emits IqLink.step Fpga.IqLink.closed linkStart (List.replicate 3000 linkTick) =
      emits IqLink.step Fpga.IqLink.closed linkStart
        (List.replicate 40 linkTick ++ List.replicate 2960 linkTick) := by
    rw [← List.replicate_add]
  -- Ten packets are closed, and at most five of them are still on the way.
  have hgroups := Fpga.IqLink.closed_le_groups (s := linkStart) rfl rfl
    (lockstep_linkTick 3000)
  rw [hsplit, emits_append, List.length_append] at hgroups
  rw [datagrams, List.length_map]
  omega

/-- Of five packets the second and the fourth are lost. -/
theorem link_accounted_twoLost :
    ∃ stats,
      (runFrom AppState.receive {}
          (arrived (datagrams (emits IqLink.step IqLink.delivered linkStart
            (List.replicate 3000 linkTick))) [0, 2, 4])).streams.lookup 0 = some stats ∧
        stats.packets = 3 ∧ (stats.lostPackets : Int) = 2 ∧ stats.timestampGaps = 2 := by
  have hts : ∀ t ∈ List.replicate 3000 linkTick, IqLink.Streaming 1 t :=
    fun t ht => (lockstep_linkTick 3000 t ht).streaming
  have hbegin : Fpga.IqPacketizer.Begins SdrPlCore.packetizerParams linkStart.core.iq 0 :=
    Or.inl ⟨rfl, rfl⟩
  have hsent : ∀ n ∈ [0, 2, 4], n < (datagrams (emits IqLink.step IqLink.delivered linkStart
      (List.replicate 3000 linkTick))).length := by
    intro n hn
    have hfive := five_datagrams
    simp only [List.mem_cons, List.not_mem_nil, or_false] at hn
    omega
  obtain ⟨header, -, stats, hlookup, haccounted⟩ :=
    link_accounted rfl hbegin hts (rfl : ({} : AppState).streams.lookup 0 = none)
      (by simp [Later]) hsent
  exact ⟨stats, hlookup, haccounted.packets, haccounted.lostPackets, haccounted.timestampGaps⟩

end Link

end Backend
end Sdr
