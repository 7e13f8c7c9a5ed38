import Sdr.Backend.IqDelivery
import Sdr.Cosim.Sessions
import Sdr.Fpga.IqLink
import Sdr.Fpga.PacketProgress

/-!
# IqDatagrams — what the co-simulation sends between two configurations

`step_rtl` collects the words of the packetizer and sends what it has at every `m_axis_tlast`.
Reconfiguring can cut a packet off in the middle: the packetizer then starts over without a `tlast`.
The server avoids the mixed packet that would follow, because `apply_stream_config` also forgets what
has been collected, and the change is announced to the core before the next word is looked at.

`iq_datagrams` says so for every run: of the words after a configuration is applied, exactly the whole
packets are sent, numbered from zero, and each is the header of that configuration and the next words
of the down-converter.  `iq_stream_received` follows what is sent to the backend: the samples, the
tuning that the header names and the loss counters are those of the datagrams that arrive.
-/

namespace Sdr
namespace Fpga
namespace IqPacketizer

open Lib

/-! ## Collecting words one at a time -/

/-- The words of the group that is still open; the first argument is as for `groups`. -/
def openWords : List Word → List Word → List Word
  | openGroup, [] => openGroup
  | openGroup, w :: ws => if w.last then openWords [] ws else openWords (openGroup ++ [w]) ws

theorem groups_snoc (openGroup ws : List Word) (w : Word) :
    groups openGroup (ws ++ [w]) =
      groups openGroup ws ++ if w.last then [openWords openGroup ws ++ [w]] else [] := by
  induction ws generalizing openGroup with
  | nil =>
      simp [groups, openWords]
  | cons v ws ih =>
      simp only [List.cons_append, groups, openWords]
      split_ifs
      all_goals simp_all

theorem openWords_snoc (openGroup ws : List Word) (w : Word) :
    openWords openGroup (ws ++ [w]) = if w.last then [] else openWords openGroup ws ++ [w] := by
  induction ws generalizing openGroup with
  | nil =>
      simp [openWords]
  | cons v ws ih =>
      simp only [List.cons_append, openWords]
      split_ifs
      all_goals simp_all

/-- With a sink that is always ready, what waits after an edge is what the edge put out. -/
theorem pending_step_of_ready (p : Params) (s : State) {i : Inputs} (hrst : i.rst = false)
    (hready : i.mAxisTready = true) : pending (step p s i) = put p s i := by
  have hkeep := accepted_append_pending p s i hrst
  rw [accepted, if_pos hready] at hkeep
  exact List.append_cancel_left hkeep

/-- And an edge that is no streaming one leaves no word waiting. -/
theorem valid_step_of_not_streaming (p : Params) (s : State) {i : Inputs} (hrst : i.rst = false)
    (hready : i.mAxisTready = true) (hi : ¬Streaming i) : (step p s i).mAxisTvalid = false := by
  have hnone : pending (step p s i) = [] := by
    rw [pending_step_of_ready p s hrst hready, put, if_neg (fun h => hi h.1)]
  unfold pending at hnone
  by_contra h
  rw [if_pos (by simpa using h)] at hnone
  cases hnone

end IqPacketizer
end Fpga

namespace Cosim

open Lib Lib.Struct Fpga
open IqPacketizer (Framed Numbered groups openWords pending put wordBytes)
open SdrPlCore (packetizerParams)
open Backend (datagram datagrams IsPacket)

/-! ## The radio's own events -/

namespace Radio

/-- What the server does to its radio. -/
inductive Action
  | apply (enabled : Bool) (stream : StreamConfig)
  | dest (dest : Endpoint)
  | rtl (sample14 : BitVec 14)

def Action.IsApply : Action → Prop
  | .apply _ _ => True
  | .dest _ | .rtl _ => False

variable (host : Host)

def act (r : Radio) : Action → Radio
  | .apply enabled stream => r.applyStreamConfig host enabled stream
  | .dest dest => { r with iqDest := dest }
  | .rtl sample14 => r.stepRtl sample14

def sent (r : Radio) : Action → List (Endpoint × List Byte)
  | .rtl sample14 => r.stepRtlSent sample14
  | .apply _ _ | .dest _ => []

/-- What the packetizer is given at an edge. -/
def fed (r : Radio) (sample14 : BitVec 14) : IqPacketizer.Inputs :=
  SdrPlCore.packetizerInputs r.dut (r.edgePorts sample14)

/-- The IQ word the packetizer takes, once the change of configuration has been announced. -/
def taken (r : Radio) : Action → List (BitVec 32)
  | .rtl sample14 =>
      if r.configChangedPulses = 0 then IqPacketizer.taken r.dut.iq (r.fed sample14) else []
  | .apply _ _ | .dest _ => []

/-- The inputs a packet latches, at the edge that starts it. -/
def started (r : Radio) : Action → List IqPacketizer.Inputs
  | .rtl sample14 => IqPacketizer.started r.dut.iq (r.fed sample14)
  | .apply _ _ | .dest _ => []

/-- The timestamp at the last edge that announces a change. -/
def seed (r : Radio) : Action → List (BitVec 64)
  | .rtl _ => if r.configChangedPulses = 1 then [r.dut.adcTimestamp] else []
  | .apply _ _ | .dest _ => []

/-- The packet that is whole after an edge, and where packets go then. -/
def completed (r : Radio) : Action → List (Endpoint × List Byte)
  | .rtl sample14 =>
      if (r.clock sample14).hasWord && (r.clock sample14).dut.iq.mAxisTlast then
        [(r.iqDest, (r.clock sample14).packetSoFar)]
      else
        []
  | .apply _ _ | .dest _ => []

/-- The ports of this configuration. -/
structure Configured (enabled : Bool) (stream : StreamConfig) (r : Radio) : Prop where
  rst : r.ports.rst = false
  coreEnable : r.ports.coreEnable = enabled
  ddc0Enable : r.ports.ddc0Enable = enabled
  frequency : r.ports.ddc0FrequencyHz = stream.frequencyHz
  rate : r.ports.ddc0IqSampleRateHz = stream.iqSampleRateHz
  bandwidth : r.ports.ddc0BandwidthHz = stream.bandwidthHz
  gain : r.ports.ddc0GainDbQ8 = 0
  decimation : r.ports.ddc0DecimRate = stream.decimation

/-- The packet that these inputs start carries this configuration. -/
structure Describes (stream : StreamConfig) (i : IqPacketizer.Inputs) : Prop where
  frequency : i.frequencyHz = stream.frequencyHz
  rate : i.iqSampleRateHz = stream.iqSampleRateHz
  bandwidth : i.bandwidthHz = stream.bandwidthHz
  gain : i.gainDbQ8 = 0

section Edges

variable {host} {enabled : Bool} {stream : StreamConfig} {r : Radio}

theorem configured_apply (hrst : r.ports.rst = false) (enabled : Bool) (stream : StreamConfig) :
    Configured enabled stream (r.applyStreamConfig host enabled stream) :=
  ⟨hrst, rfl, rfl, rfl, rfl, rfl, rfl, rfl⟩

theorem collect_ports (r : Radio) : r.collect.ports = r.ports := by
  unfold collect
  split_ifs
  all_goals rfl

theorem collect_dut (r : Radio) : r.collect.dut = r.dut := by
  unfold collect
  split_ifs
  all_goals rfl

theorem collect_pulses (r : Radio) : r.collect.configChangedPulses = r.configChangedPulses := by
  unfold collect
  split_ifs
  all_goals rfl

variable (host) in
theorem Configured.act (h : Configured enabled stream r) {a : Action} (ha : ¬a.IsApply) :
    Configured enabled stream (r.act host a) := by
  cases a with
  | apply enabled stream =>
      exact absurd trivial ha
  | dest dest =>
      exact ⟨h.rst, h.coreEnable, h.ddc0Enable, h.frequency, h.rate, h.bandwidth, h.gain,
        h.decimation⟩
  | rtl sample14 =>
      have hports : (r.act host (.rtl sample14)).ports = r.edgePorts sample14 :=
        collect_ports (r.clock sample14)
      constructor
      all_goals rw [hports]
      · exact h.rst
      · exact h.coreEnable
      · exact h.ddc0Enable
      · exact h.frequency
      · exact h.rate
      · exact h.bandwidth
      · exact h.gain
      · exact h.decimation

theorem hasWord_clock (h : Configured enabled stream r) (sample14 : BitVec 14) :
    (r.clock sample14).hasWord = (r.clock sample14).dut.iq.mAxisTvalid := by
  have hrst : (r.clock sample14).ports.rst = false := h.rst
  have hready : (r.clock sample14).ports.mAxisIqTready = true := rfl
  rw [hasWord, hrst, hready]
  simp

theorem iq_clock (r : Radio) (sample14 : BitVec 14) :
    (r.clock sample14).dut.iq = IqPacketizer.step packetizerParams r.dut.iq (r.fed sample14) :=
  rfl

/-- The packetizer goes on with its stream at an edge of the enabled core that announces nothing. -/
theorem streaming_fed (h : Configured enabled stream r) (sample14 : BitVec 14) :
    IqPacketizer.Streaming (r.fed sample14) ↔ enabled = true ∧ r.configChangedPulses = 0 := by
  have hrst : (r.fed sample14).rst = false := h.rst
  have henable : (r.fed sample14).enable = enabled := by
    show (r.ports.coreEnable && r.ports.ddc0Enable) = enabled
    rw [h.coreEnable, h.ddc0Enable, Bool.and_self]
  have hchanged : (r.fed sample14).configChanged = decide (0 < r.configChangedPulses) := rfl
  rw [IqPacketizer.Streaming, hrst, henable, hchanged]
  simp

theorem describes_fed (h : Configured enabled stream r) (sample14 : BitVec 14) :
    Describes stream (r.fed sample14) :=
  ⟨h.frequency, h.rate, h.bandwidth, h.gain⟩

theorem decimation_fed (h : Configured enabled stream r) (sample14 : BitVec 14) :
    (r.fed sample14).decimation = stream.decimation.setWidth 32 :=
  congrArg (BitVec.setWidth 32) h.decimation

/-- At an edge that is not a streaming one nothing is collected. -/
theorem quiet_edge (h : Configured enabled stream r) {sample14 : BitVec 14}
    (hquiet : ¬IqPacketizer.Streaming (r.fed sample14)) :
    (r.clock sample14).hasWord = false := by
  rw [hasWord_clock h, iq_clock]
  exact IqPacketizer.valid_step_of_not_streaming packetizerParams r.dut.iq h.rst rfl hquiet

end Edges

/-! ## From one configuration to the next -/

/-- The change is still being announced, and nothing has been collected or sent since. -/
structure Announcing (r : Radio) (starts : List IqPacketizer.Inputs) (words : List (BitVec 32))
    (seeds : List (BitVec 64)) (done : List (Endpoint × List Byte)) : Prop where
  pulses : 0 < r.configChangedPulses
  packet : r.iqPacket = []
  starts_eq : starts = []
  words_eq : words = []
  seeds_eq : seeds = []
  done_eq : done = []

/-- The words `out` of the new stream have been collected: the whole packets are done, and the rest
is what has been collected of the next one. -/
structure Collecting (stream : StreamConfig) (r : Radio) (starts : List IqPacketizer.Inputs)
    (words : List (BitVec 32)) (seeds : List (BitVec 64)) (done : List (Endpoint × List Byte))
    (t0 : BitVec 64) (out : List IqPacketizer.Word) (packets : List IqPacketizer.Packet)
    (current : List (BitVec 32)) : Prop where
  pulses : r.configChangedPulses = 0
  seeds_eq : seeds = [t0]
  framed : Framed packetizerParams out r.dut.iq packets current
  numbered : Numbered packetizerParams t0 (stream.decimation.setWidth 32) starts words r.dut.iq
    packets current
  packet : r.iqPacket = datagram (openWords [] out)
  done_eq : done.map Prod.snd = datagrams out

section Phases

variable {host} {stream : StreamConfig} {r : Radio} {starts : List IqPacketizer.Inputs}
  {words : List (BitVec 32)} {seeds : List (BitVec 64)} {done : List (Endpoint × List Byte)}
  {t0 : BitVec 64} {out : List IqPacketizer.Word} {packets : List IqPacketizer.Packet}
  {current : List (BitVec 32)}

theorem datagram_snoc (g : List IqPacketizer.Word) (w : IqPacketizer.Word) :
    datagram (g ++ [w]) = appendU32 (datagram g) w.data := by
  simp [datagram, IqPacketizer.wordBytes, appendU32]

variable (host) in
/-- What one edge of a stream adds is what the packetizer put out at it. -/
theorem collect_put (h : Configured true stream r) (hopen : r.iqPacket = datagram (openWords [] out))
    (sample14 : BitVec 14) :
    (r.act host (.rtl sample14)).iqPacket =
        datagram (openWords [] (out ++ put packetizerParams r.dut.iq (r.fed sample14))) ∧
      datagrams (out ++ put packetizerParams r.dut.iq (r.fed sample14)) =
        datagrams out ++ (r.completed (.rtl sample14)).map Prod.snd := by
  have hput := IqPacketizer.pending_step_of_ready packetizerParams r.dut.iq
    (i := r.fed sample14) h.rst rfl
  rw [← iq_clock] at hput
  have hword := hasWord_clock h sample14
  rw [← hput]
  cases hvalid : (r.clock sample14).dut.iq.mAxisTvalid with
  | false =>
      -- Without a word the open packet stays as it is.
      rw [hvalid] at hword
      have hcollect : (r.act host (.rtl sample14)).iqPacket = r.iqPacket := by
        show (r.clock sample14).collect.iqPacket = r.iqPacket
        rw [collect, hword]
        rfl
      rw [hcollect, hopen, completed, hword, pending, hvalid]
      simp
  | true =>
      rw [hvalid] at hword
      have hsofar : (r.clock sample14).packetSoFar =
          appendU32 (datagram (openWords [] out)) (r.clock sample14).dut.iq.mAxisTdata := by
        rw [← hopen]
        rfl
      rw [pending, hvalid, if_pos rfl, datagrams, datagrams, IqPacketizer.groups_snoc,
        IqPacketizer.openWords_snoc]
      show (r.clock sample14).collect.iqPacket = _ ∧ _
      rw [collect, hword, completed, hword]
      -- The word joins the open packet, or closes it.
      cases hlast : (r.clock sample14).dut.iq.mAxisTlast with
      | false =>
          simp [hsofar, datagram_snoc]
      | true =>
          exact ⟨rfl, by simp [hsofar, datagram_snoc]⟩

/-- Where a stream of one configuration is, with what has been recorded since it was applied. -/
def Phase (stream : StreamConfig) (r : Radio) (starts : List IqPacketizer.Inputs)
    (words : List (BitVec 32)) (seeds : List (BitVec 64)) (done : List (Endpoint × List Byte)) :
    Prop :=
  Announcing r starts words seeds done ∨
    ∃ t0 out packets current, Collecting stream r starts words seeds done t0 out packets current

/-- The edges that announce the change: the packetizer starts over at each, and after the last one
the stream begins. -/
theorem phase_announce (h : Configured true stream r) (hr : Announcing r starts words seeds done)
    (sample14 : BitVec 14) :
    Phase stream (r.act host (.rtl sample14)) (starts ++ r.started (.rtl sample14))
      (words ++ r.taken (.rtl sample14)) (seeds ++ r.seed (.rtl sample14))
      (done ++ r.completed (.rtl sample14)) := by
  have hpos := hr.pulses
  -- With `config_changed` up the packetizer takes nothing and puts nothing out.
  have hquiet : ¬IqPacketizer.Streaming (r.fed sample14) := by
    rw [streaming_fed h]
    omega
  have hword := quiet_edge h hquiet
  have hstarted : r.started (.rtl sample14) = [] := by
    rw [started, IqPacketizer.started, if_neg (fun hs => hquiet hs.1)]
  have htaken : r.taken (.rtl sample14) = [] := if_neg (by omega)
  have hcompleted : r.completed (.rtl sample14) = [] := by
    rw [completed, hword]
    rfl
  have hpulses : (r.act host (.rtl sample14)).configChangedPulses = r.configChangedPulses - 1 :=
    collect_pulses (r.clock sample14)
  have hpacket : (r.act host (.rtl sample14)).iqPacket = [] := by
    show (r.clock sample14).collect.iqPacket = []
    rw [collect, hword]
    exact hr.packet
  have hdut : (r.act host (.rtl sample14)).dut = (r.clock sample14).dut := collect_dut _
  rw [hstarted, htaken, hcompleted, hr.starts_eq, hr.words_eq, hr.seeds_eq, hr.done_eq]
  simp only [List.append_nil, List.nil_append]
  by_cases hlast : r.configChangedPulses = 1
  · -- The last announcement: the stream begins at this edge's timestamp.
    have hchanged : (r.fed sample14).configChanged = true := decide_eq_true hpos
    have henable : (r.fed sample14).enable = true := by
      show (r.ports.coreEnable && r.ports.ddc0Enable) = true
      rw [h.coreEnable, h.ddc0Enable, Bool.and_self]
    have hvalid : (r.clock sample14).dut.iq.mAxisTvalid = false := by
      rw [← hasWord_clock h, hword]
    have hbegin : IqPacketizer.Begins packetizerParams (r.clock sample14).dut.iq
        r.dut.adcTimestamp :=
      Or.inr ⟨r.dut.iq, r.fed sample14, h.rst, henable, hchanged, iq_clock r sample14, hvalid, rfl⟩
    rcases IqPacketizer.framed_numbered_begin hbegin (stream.decimation.setWidth 32) with
      ⟨hframed, hnumbered⟩
    rw [← hdut] at hframed hnumbered
    exact Or.inr ⟨r.dut.adcTimestamp, [], [], [],
      ⟨by omega, by rw [seed, if_pos hlast], hframed, hnumbered, hpacket, rfl⟩⟩
  · exact Or.inl ⟨by omega, hpacket, rfl, rfl, if_neg hlast, rfl⟩

/-- The edges of the stream. -/
theorem phase_collect (h : Configured true stream r)
    (hr : Collecting stream r starts words seeds done t0 out packets current)
    (sample14 : BitVec 14) :
    Phase stream (r.act host (.rtl sample14)) (starts ++ r.started (.rtl sample14))
      (words ++ r.taken (.rtl sample14)) (seeds ++ r.seed (.rtl sample14))
      (done ++ r.completed (.rtl sample14)) := by
  have hzero := hr.pulses
  have hstreaming : IqPacketizer.Streaming (r.fed sample14) := (streaming_fed h sample14).2 ⟨rfl, hzero⟩
  have hpulses : (r.act host (.rtl sample14)).configChangedPulses = r.configChangedPulses - 1 :=
    collect_pulses (r.clock sample14)
  have hiq : (r.act host (.rtl sample14)).dut.iq =
      IqPacketizer.step packetizerParams r.dut.iq (r.fed sample14) :=
    congrArg SdrPlCore.State.iq (collect_dut (r.clock sample14))
  have hframed := IqPacketizer.framed_step (p := packetizerParams) (by decide) hr.framed hstreaming
  have hnumbered := IqPacketizer.numbered_step hr.numbered hr.framed.legal hstreaming
    (decimation_fed h sample14)
  rcases collect_put host h hr.packet sample14 with ⟨hpacket, hdone⟩
  rw [← hiq] at hframed hnumbered
  refine Or.inr ⟨t0, _, _, _, ⟨by omega, ?_, hframed, ?_, hpacket, ?_⟩⟩
  · rw [seed, if_neg (by omega), List.append_nil]
    exact hr.seeds_eq
  · rw [taken, if_pos hzero]
    exact hnumbered
  · rw [List.map_append, hr.done_eq, hdone]

variable (host) in
theorem phase_step (h : Configured true stream r) (hr : Phase stream r starts words seeds done)
    {a : Action} (ha : ¬a.IsApply) :
    Phase stream (r.act host a) (starts ++ r.started a) (words ++ r.taken a) (seeds ++ r.seed a)
      (done ++ r.completed a) := by
  cases a with
  | apply enabled stream =>
      exact absurd trivial ha
  | dest dest =>
      -- A new address concerns the packets that are completed from now on.
      simp only [started, taken, seed, completed, List.append_nil]
      rcases hr with hr | ⟨t0, out, packets, current, hr⟩
      · exact Or.inl ⟨hr.pulses, hr.packet, hr.starts_eq, hr.words_eq, hr.seeds_eq, hr.done_eq⟩
      · exact Or.inr ⟨t0, out, packets, current,
          ⟨hr.pulses, hr.seeds_eq, hr.framed, hr.numbered, hr.packet, hr.done_eq⟩⟩
  | rtl sample14 =>
      rcases hr with hr | ⟨t0, out, packets, current, hr⟩
      · exact phase_announce h hr sample14
      · exact phase_collect h hr sample14

variable (host) in
/-- A run without a further change of configuration. -/
theorem phase_run (hrst : r.ports.rst = false) (stream : StreamConfig) (as : List Action)
    (has : ∀ a ∈ as, ¬a.IsApply) :
    Configured true stream (runFrom (act host) (r.applyStreamConfig host true stream) as) ∧
      Phase stream (runFrom (act host) (r.applyStreamConfig host true stream) as)
        (emits (act host) started (r.applyStreamConfig host true stream) as)
        (emits (act host) taken (r.applyStreamConfig host true stream) as)
        (emits (act host) seed (r.applyStreamConfig host true stream) as)
        (emits (act host) completed (r.applyStreamConfig host true stream) as) := by
  induction as using List.reverseRecOn with
  | nil =>
      -- `apply_stream_config` leaves three announcing edges and no open packet.
      exact ⟨configured_apply hrst true stream,
        Or.inl ⟨by show 0 < 3; decide, rfl, rfl, rfl, rfl, rfl⟩⟩
  | append_singleton as a ih =>
      rcases ih (fun b hb => has b (by simp [hb])) with ⟨hconfigured, hphase⟩
      have ha : ¬a.IsApply := has a (by simp)
      rw [runFrom_snoc, emits_snoc, emits_snoc, emits_snoc, emits_snoc]
      exact ⟨hconfigured.act host ha, phase_step host hconfigured hphase ha⟩

theorem packet_of_phase (hr : Phase stream r starts words seeds done) {k : Nat}
    {d : Endpoint × List Byte} (hk : done[k]? = some d) :
    ∃ t0, seeds = [t0] ∧ IsPacket t0 stream.decimation starts words k d.2 := by
  rcases hr with hr | ⟨t0, out, packets, current, hr⟩
  · rw [hr.done_eq] at hk
    cases hk
  · have hout : datagrams out = packets.map fun q => datagram (q.words packetizerParams) := by
      rw [datagrams, hr.framed.out_eq,
        IqPacketizer.groups_flatMap_words _ _ IqPacketizer.last_partialWords, List.map_map]
      rfl
    have hdata : (packets.map fun q => datagram (q.words packetizerParams))[k]? = some d.2 := by
      rw [← hout, ← hr.done_eq, List.getElem?_map, hk]
      rfl
    rw [List.getElem?_map] at hdata
    rcases Option.map_eq_some_iff.1 hdata with ⟨q, hq, hwords⟩
    rw [← hwords]
    exact ⟨t0, hr.seeds_eq, Backend.isPacket_of_numbered hr.framed.full hr.numbered hq⟩

/-- What is whole after an edge is sent if there is somewhere to send it. -/
theorem sent_eq_filter {a : Action} (hlong : ∀ d ∈ r.completed a, 64 ≤ d.2.length) :
    r.sent a = (r.completed a).filter fun d => d.1.valid := by
  cases a with
  | apply enabled stream =>
      rfl
  | dest dest =>
      rfl
  | rtl sample14 =>
      have hdest : (r.clock sample14).iqDest = r.iqDest := rfl
      simp only [completed] at hlong ⊢
      simp only [sent, stepRtlSent, sends, hdest]
      by_cases hwhole : ((r.clock sample14).hasWord && (r.clock sample14).dut.iq.mAxisTlast) = true
      · rw [if_pos hwhole] at hlong ⊢
        have hlong := hlong _ (List.mem_singleton.2 rfl)
        simp only [hwhole, Bool.true_and, decide_eq_true hlong, Bool.and_true]
        cases hvalid : r.iqDest.valid with
        | false => simp [hvalid]
        | true => simp [hvalid]
      · rw [if_neg hwhole, if_neg]
        · rfl
        · simp [hwhole]

variable (host) in
theorem sent_run (hrst : r.ports.rst = false) (stream : StreamConfig) (as : List Action)
    (has : ∀ a ∈ as, ¬a.IsApply) :
    emits (act host) sent (r.applyStreamConfig host true stream) as =
      (emits (act host) completed (r.applyStreamConfig host true stream) as).filter
        fun d => d.1.valid := by
  induction as using List.reverseRecOn with
  | nil =>
      rfl
  | append_singleton as a ih =>
      have has' : ∀ b ∈ as, ¬b.IsApply := fun b hb => has b (by simp [hb])
      rcases phase_run host hrst stream as has' with ⟨hconfigured, hphase⟩
      have hnext := phase_step host hconfigured hphase (has a (by simp))
      rw [emits_snoc, emits_snoc, List.filter_append, ih has', sent_eq_filter]
      -- What is completed is a packet, so it is never too short to be sent.
      intro d hd
      obtain ⟨k, hk⟩ := List.mem_iff_getElem?.1 (List.mem_append_right
        (emits (act host) completed (r.applyStreamConfig host true stream) as) hd)
      rcases packet_of_phase hnext hk with ⟨t0, _, hpacket⟩
      rw [hpacket.1]
      decide

variable (host) in
theorem describes_run (hrst : r.ports.rst = false) (stream : StreamConfig) (as : List Action)
    (has : ∀ a ∈ as, ¬a.IsApply) :
    ∀ i ∈ emits (act host) started (r.applyStreamConfig host true stream) as, Describes stream i := by
  intro i hi
  rcases exists_of_mem_emits hi with ⟨before, a, hbefore, hstarted⟩
  have hmem : ∀ b ∈ before, ¬b.IsApply :=
    fun b hb => has b (hbefore.mem (List.mem_append_left _ hb))
  have hconfigured := (phase_run host hrst stream before hmem).1
  cases a with
  | apply enabled stream =>
      cases hstarted
  | dest dest =>
      cases hstarted
  | rtl sample14 =>
      simp only [started, IqPacketizer.started] at hstarted
      split_ifs at hstarted
      · rw [List.mem_singleton.1 hstarted]
        exact describes_fed hconfigured sample14
      · cases hstarted

variable (host) in
/-- A core that is not enabled completes nothing and sends nothing. -/
theorem silent_run (h : Configured false stream r) (as : List Action)
    (has : ∀ a ∈ as, ¬a.IsApply) :
    emits (act host) completed r as = [] ∧ emits (act host) sent r as = [] := by
  induction as generalizing r with
  | nil =>
      exact ⟨rfl, rfl⟩
  | cons a as ih =>
      have ha : ¬a.IsApply := has a (by simp)
      rcases ih (h.act host ha) (fun b hb => has b (by simp [hb])) with ⟨hcompleted, hsent⟩
      have hnone : r.completed a = [] := by
        cases a with
        | apply enabled stream => exact absurd trivial ha
        | dest dest => rfl
        | rtl sample14 =>
            have hquiet : ¬IqPacketizer.Streaming (r.fed sample14) := by
              rw [streaming_fed h]
              simp
            rw [completed, quiet_edge h hquiet]
            rfl
      have hnothing : r.sent a = [] := by
        rw [sent_eq_filter (by simp [hnone]), hnone]
        rfl
      rw [emits_cons, emits_cons, hnone, hnothing, hcompleted, hsent]
      exact ⟨rfl, rfl⟩

end Phases

/-! ## The next packet -/

section Progress

variable {host} {stream : StreamConfig} {r : Radio}

theorem flowing_edgePorts (h : Configured true stream r) (hzero : r.configChangedPulses = 0)
    (sample14 : BitVec 14) : SdrPlCore.Flowing stream.decimation (r.edgePorts sample14) where
  streaming := by
    refine ⟨h.rst, ?_, ?_⟩
    · show (r.ports.coreEnable && r.ports.ddc0Enable) = true
      rw [h.coreEnable, h.ddc0Enable, Bool.and_self]
    · show decide (0 < r.configChangedPulses) = false
      rw [hzero]
      rfl
  decimRate := h.decimation
  sample := by
    show (true && r.ports.coreEnable && true) = true
    rw [h.coreEnable]
    rfl
  sink := rfl

/-- A packet is completed when the core closes one. -/
theorem completed_eq_closed (h : Configured true stream r) (sample14 : BitVec 14) :
    (r.completed (.rtl sample14)).map (fun _ => ()) =
      SdrPlCore.closed r.dut (r.edgePorts sample14) := by
  have hdut : (r.clock sample14).dut = SdrPlCore.step r.dut (r.edgePorts sample14) := rfl
  rw [completed, hasWord_clock h, hdut, SdrPlCore.closed]
  split_ifs
  · rfl
  · rfl

variable (host) in
/-- The core below the edges of a configuration, and the packets it closes. -/
theorem core_run (h : Configured true stream r) (hzero : r.configChangedPulses = 0)
    (samples : List (BitVec 14)) :
    ∃ is : List SdrPlCore.Inputs, is.length = samples.length ∧
      (∀ i ∈ is, SdrPlCore.Flowing stream.decimation i) ∧
        (emits (act host) completed r (samples.map .rtl)).map (fun _ => ()) =
          emits SdrPlCore.step SdrPlCore.closed r.dut is := by
  induction samples generalizing r with
  | nil =>
      exact ⟨[], rfl, by simp, rfl⟩
  | cons x samples ih =>
      have hnext : (r.act host (.rtl x)).configChangedPulses = 0 := by
        refine (collect_pulses (r.clock x)).trans ?_
        show r.configChangedPulses - 1 = 0
        rw [hzero]
      obtain ⟨is, hlen, his, hclosed⟩ := ih (h.act host (a := .rtl x) id) hnext
      refine ⟨r.edgePorts x :: is, by simp [hlen], ?_, ?_⟩
      · exact List.forall_mem_cons.2 ⟨flowing_edgePorts h hzero x, his⟩
      · rw [List.map_cons, emits_cons, List.map_append, completed_eq_closed h, hclosed, emits_cons]
        exact congrArg (fun dut => _ ++ emits SdrPlCore.step SdrPlCore.closed dut is)
          (collect_dut (r.clock x))

variable (host) in
/-- Once the pipeline is filled, packets are completed one after another, whatever is sampled. -/
theorem completed_often (h : Configured true stream r) (hzero : r.configChangedPulses = 0)
    (hfed : SdrPlCore.Fed stream.decimation r.dut) (samples : List (BitVec 14)) :
    samples.length / SdrPlCore.closeBound stream.decimation ≤
      (emits (act host) completed r (samples.map .rtl)).length := by
  obtain ⟨is, hlen, his, hclosed⟩ := core_run host h hzero samples
  have hcount := congrArg List.length hclosed
  rw [List.length_map] at hcount
  rw [← hlen, hcount]
  exact SdrPlCore.closed_often hfed is his

variable (host) in
theorem dest_of_completed (r : Radio) (samples : List (BitVec 14)) :
    ∀ d ∈ emits (act host) completed r (samples.map .rtl), d.1 = r.iqDest := by
  induction samples generalizing r with
  | nil =>
      simp
  | cons x samples ih =>
      intro d hd
      have hdest : (r.act host (.rtl x)).iqDest = r.iqDest := by
        show (r.clock x).collect.iqDest = _
        unfold collect
        split_ifs
        all_goals rfl
      rw [List.map_cons, emits_cons, List.mem_append] at hd
      rcases hd with hd | hd
      · rw [completed] at hd
        split_ifs at hd
        · rw [List.mem_singleton.1 hd]
        · cases hd
      · exact (ih _ d hd).trans hdest

end Progress

end Radio

/-! ## The server and its radio -/

/-- The datagram of an IQ output. -/
def Output.iqDatagram : Output → Option (Endpoint × List Byte)
  | .iq dest data => some (dest, data)
  | .reply _ | .refusal _ | .psd _ _ | .status _ _ => none

namespace CosimServer

open Radio (Action act)

variable (host : Host)

/-- What a request does to the radio. -/
def lineActions (s : CosimServer) (line : CString) : List Action :=
  match commandOf line with
  | .hello => [.dest (helloDest host s.clientIp line "iq_port" 9001)]
  | .setRx =>
      if jsonBool line "enable" s.stream.enabled then [.apply true (requestedStream line)]
      else [.apply false { s.stream with enabled := false }]
  | .stopAll => [.apply false { s.stream with enabled := false }]
  | .missing | .ping | .getStatus | .setFrontend | .setPsd | .unknown => []

def actions (s : CosimServer) : Event → List Action
  | .connect _ => []
  | .recv bytes =>
      if s.clientOpen then
        emits (handleLine host) (lineActions host) (s.buffered bytes) (s.newLines bytes)
      else
        []
  | .hangup =>
      if s.clientOpen then
        [.dest { s.radio.iqDest with valid := false },
          .apply false { s.stream with enabled := false }]
      else
        []
  | .rtl sample14 => [.rtl sample14]
  | .timers => []

/-- The IQ datagrams that an event sends. -/
def iqSent (s : CosimServer) (e : Event) : List (Endpoint × List Byte) :=
  (outputs host s e).filterMap Output.iqDatagram

section Feeds

variable {host} {s : CosimServer}

theorem radio_handleLine (s : CosimServer) (line : CString) :
    (handleLine host s line).radio = runFrom (act host) s.radio (lineActions host s line) := by
  unfold handleLine handleRequest lineActions
  cases commandOf line with
  | setRx =>
      simp only [handleSetRx]
      split_ifs
      · rfl
      · rfl
  | hello | missing | ping | getStatus | setFrontend | setPsd | stopAll | unknown =>
      rfl

variable (host) in
/-- Requests reach the radio as actions, and send nothing. -/
theorem radio_lines (s : CosimServer) (lines : List CString) :
    (runFrom (handleLine host) s lines).radio =
        runFrom (act host) s.radio (emits (handleLine host) (lineActions host) s lines) ∧
      emits (act host) Radio.sent s.radio (emits (handleLine host) (lineActions host) s lines) =
        [] := by
  induction lines generalizing s with
  | nil =>
      exact ⟨rfl, rfl⟩
  | cons line lines ih =>
      rcases ih (handleLine host s line) with ⟨hradio, hsent⟩
      have hnone : emits (act host) Radio.sent s.radio (lineActions host s line) = [] := by
        unfold lineActions
        cases commandOf line with
        | setRx =>
            simp only
            split_ifs
            · rfl
            · rfl
        | hello | missing | ping | getStatus | setFrontend | setPsd | stopAll | unknown =>
            rfl
      rw [runFrom_cons, emits_cons, runFrom_append, emits_append, ← radio_handleLine, hnone]
      exact ⟨hradio, hsent⟩

theorem radio_sameSession (s : CosimServer) (now : BitVec 64) :
    ((s.readClock.statusTimer now).psdTimer now).radio = s.radio := by
  unfold psdTimer statusTimer
  split_ifs
  all_goals rfl

/-- The radio of the server goes through the actions, and every IQ datagram is sent by one of them. -/
theorem radio_step (s : CosimServer) (e : Event) :
    (step host s e).radio = runFrom (act host) s.radio (actions host s e) ∧
      iqSent host s e = emits (act host) Radio.sent s.radio (actions host s e) := by
  cases e with
  | connect ip =>
      unfold step iqSent outputs actions
      split_ifs
      · exact ⟨rfl, rfl⟩
      · exact ⟨rfl, rfl⟩
  | recv bytes =>
      unfold step iqSent outputs actions
      split_ifs
      · rcases radio_lines host (s.buffered bytes) (s.newLines bytes) with ⟨hradio, hsent⟩
        refine ⟨hradio, Eq.trans ?_ hsent.symm⟩
        refine List.filterMap_eq_nil_iff.2 ?_
        intro out hout
        rcases exists_of_mem_emits hout with ⟨done, line, _, hreply⟩
        rw [List.mem_singleton.1 hreply]
        rfl
      · exact ⟨rfl, rfl⟩
  | hangup =>
      unfold step iqSent outputs actions
      split_ifs
      · exact ⟨rfl, rfl⟩
      · exact ⟨rfl, rfl⟩
  | rtl sample14 =>
      refine ⟨rfl, ?_⟩
      have hid : Output.iqDatagram ∘ (fun d : Endpoint × List Byte => Output.iq d.1 d.2) = some := rfl
      rw [iqSent, outputs, List.filterMap_map, hid, List.filterMap_some]
      exact (List.append_nil _).symm
  | timers =>
      refine ⟨radio_sameSession s _, ?_⟩
      rw [iqSent, outputs, List.filterMap_append, statusTimerSent, psdTimerSent]
      split_ifs
      all_goals simp [Output.iqDatagram, actions]

end Feeds

/-- The radio once this configuration has been applied. -/
def since (dut : SdrPlCore.State) (sample14 : Nat → BitVec 14) (before : List Action) (enabled : Bool)
    (stream : StreamConfig) : Radio :=
  (runFrom (act host) (init host dut sample14).radio before).applyStreamConfig host enabled stream

section Run

variable {host}

/-- The radio is out of reset, and has some configuration. -/
def SomeConfig (r : Radio) : Prop :=
  ∃ enabled stream, Radio.Configured enabled stream r

variable (host) in
theorem SomeConfig.act {r : Radio} (h : SomeConfig r) (a : Action) : SomeConfig (r.act host a) := by
  rcases h with ⟨enabled, stream, h⟩
  cases a with
  | apply enabled' stream' =>
      exact ⟨enabled', stream', Radio.configured_apply h.rst enabled' stream'⟩
  | dest dest =>
      exact ⟨enabled, stream, h.act host (a := .dest dest) id⟩
  | rtl sample14 =>
      exact ⟨enabled, stream, h.act host (a := .rtl sample14) id⟩

variable (host) in
theorem configured_init (dut : SdrPlCore.State) (sample14 : Nat → BitVec 14) :
    ∃ stream, Radio.Configured false stream (init host dut sample14).radio := by
  have hports : ∀ (r : Radio) (samples : List (BitVec 14)),
      (runFrom Radio.stepRtl r samples).ports.coreEnable = r.ports.coreEnable ∧
        (runFrom Radio.stepRtl r samples).ports.ddc0Enable = r.ports.ddc0Enable ∧
          (runFrom Radio.stepRtl r samples).ports.ddc0GainDbQ8 = r.ports.ddc0GainDbQ8 := by
    intro r samples
    induction samples generalizing r with
    | nil =>
        exact ⟨rfl, rfl, rfl⟩
    | cons sample samples ih =>
        have hstep : (r.stepRtl sample).ports = r.edgePorts sample :=
          Radio.collect_ports (r.clock sample)
        have hrest := ih (r.stepRtl sample)
        rw [hstep] at hrest
        exact hrest
  have hreset := hports { ports := Radio.initialPorts, dut } ((List.range 16).map sample14)
  rw [← resetRadio] at hreset
  refine ⟨{
    frequencyHz := (resetRadio dut sample14).ports.ddc0FrequencyHz
    iqSampleRateHz := (resetRadio dut sample14).ports.ddc0IqSampleRateHz
    bandwidthHz := (resetRadio dut sample14).ports.ddc0BandwidthHz
    decimation := (resetRadio dut sample14).ports.ddc0DecimRate }, ?_⟩
  -- `init` releases the reset and leaves the other ports as they are.
  constructor
  all_goals dsimp only [init]
  · exact hreset.1
  · exact hreset.2.1
  · exact hreset.2.2

variable (host) in
theorem iqSent_run (dut : SdrPlCore.State) (sample14 : Nat → BitVec 14) (es : List Event) :
    emits (step host) (iqSent host) (init host dut sample14) es =
      emits (act host) Radio.sent (init host dut sample14).radio
        (emits (step host) (actions host) (init host dut sample14) es) :=
  emits_feeds (fun s e => (radio_step s e).1) (fun s e => (radio_step s e).2)
    (init host dut sample14) es

variable (host) in
/-- Before the first configuration nothing is sent. -/
theorem silent_until_applied (dut : SdrPlCore.State) (sample14 : Nat → BitVec 14) (es : List Event)
    (hnone : ∀ a ∈ emits (step host) (actions host) (init host dut sample14) es, ¬a.IsApply) :
    emits (step host) (iqSent host) (init host dut sample14) es = [] := by
  rcases configured_init host dut sample14 with ⟨stream, hconfigured⟩
  rw [iqSent_run]
  exact (Radio.silent_run host hconfigured _ hnone).2

variable (host) in
theorem rst_run (dut : SdrPlCore.State) (sample14 : Nat → BitVec 14) (as : List Action) :
    (runFrom (act host) (init host dut sample14).radio as).ports.rst = false := by
  rcases configured_init host dut sample14 with ⟨first, hfirst⟩
  have hsome : SomeConfig (runFrom (act host) (init host dut sample14).radio as) :=
    runFrom_inductive (I := SomeConfig) (fun r a hr => hr.act host a) ⟨false, first, hfirst⟩ as
  rcases hsome with ⟨enabled, stream, hconfigured⟩
  exact hconfigured.rst

/-- What is completed after a configuration is applied are the packets of one numbering. -/
theorem packet_of_completed {dut : SdrPlCore.State} {sample14 : Nat → BitVec 14}
    {before after : List Action} {stream : StreamConfig} (hafter : ∀ a ∈ after, ¬a.IsApply)
    {k : Nat} {d : Endpoint × List Byte}
    (hk : (emits (act host) Radio.completed (since host dut sample14 before true stream)
      after)[k]? = some d) :
    ∃ t0,
      emits (act host) Radio.seed (since host dut sample14 before true stream) after = [t0] ∧
        IsPacket t0 stream.decimation
          (emits (act host) Radio.started (since host dut sample14 before true stream) after)
          (emits (act host) Radio.taken (since host dut sample14 before true stream) after) k
          d.2 :=
  Radio.packet_of_phase
    (Radio.phase_run host (rst_run host dut sample14 before) stream after hafter).2 hk

/-- What is sent from a configuration on is added to what was sent before it. -/
theorem iqSent_since {dut : SdrPlCore.State} {sample14 : Nat → BitVec 14} {es : List Event}
    {before after : List Action} {enabled : Bool} {stream : StreamConfig}
    (hactions : emits (step host) (actions host) (init host dut sample14) es =
      before ++ .apply enabled stream :: after) :
    emits (step host) (iqSent host) (init host dut sample14) es =
      emits (act host) Radio.sent (init host dut sample14).radio before ++
        emits (act host) Radio.sent (since host dut sample14 before enabled stream) after := by
  rw [iqSent_run, hactions, emits_append, emits_cons]
  rfl

end Run

/-- Of what is collected after a configuration is applied, exactly the whole packets are sent, if there
is an address to send them to.  Packet `k` has the number `k` and the timestamp of its first sample,
counted from the announcement; its header is this configuration, and its samples are the next words
of the down-converter. -/
theorem iq_datagrams (dut : SdrPlCore.State) (sample14 : Nat → BitVec 14) (es : List Event)
    (before after : List Action) (enabled : Bool) (stream : StreamConfig)
    (hactions : emits (step host) (actions host) (init host dut sample14) es =
      before ++ .apply enabled stream :: after)
    (hafter : ∀ a ∈ after, ¬a.IsApply) :
    emits (step host) (iqSent host) (init host dut sample14) es =
        emits (act host) Radio.sent (init host dut sample14).radio before ++
          (emits (act host) Radio.completed (since host dut sample14 before enabled stream)
            after).filter (fun d => d.1.valid) ∧
      ∀ k dest data,
        (emits (act host) Radio.completed (since host dut sample14 before enabled stream)
            after)[k]? = some (dest, data) →
          enabled = true ∧
            ∃ t0,
              emits (act host) Radio.seed (since host dut sample14 before enabled stream) after =
                  [t0] ∧
                IsPacket t0 stream.decimation
                  (emits (act host) Radio.started (since host dut sample14 before enabled stream)
                    after)
                  (emits (act host) Radio.taken (since host dut sample14 before enabled stream)
                    after) k data ∧
                ∀ i ∈ emits (act host) Radio.started
                    (since host dut sample14 before enabled stream) after,
                  Radio.Describes stream i := by
  have hrst := rst_run host dut sample14 before
  rw [iqSent_since hactions]
  cases enabled with
  | false =>
      have hconfigured : Radio.Configured false stream (since host dut sample14 before false stream) :=
        Radio.configured_apply hrst false stream
      rcases Radio.silent_run host hconfigured after hafter with ⟨hcompleted, hsent⟩
      rw [hcompleted, hsent]
      exact ⟨rfl, fun k dest data hk => by cases hk⟩
  | true =>
      refine ⟨congrArg _ (Radio.sent_run host hrst stream after hafter), ?_⟩
      intro k dest data hk
      rcases packet_of_completed hafter hk with ⟨t0, hseed, hpacket⟩
      exact ⟨rfl, t0, hseed, hpacket, Radio.describes_run host hrst stream after hafter⟩

def setRxLine : CString :=
  text "\x7b\"request_id\":2,\"cmd\":\"set_rx\",\"enable\":true,\"frequency_hz\":7100000\x7d"

/-- The owner tunes the device, and three edges announce it. -/
def tuned : List Event :=
  greeted ++
    [.recv (setRxLine.map (fun c => UInt8.ofNat c.toNat) ++ [10]), .rtl 0, .rtl 0, .rtl 0]

/-- The owner tunes the device and listens to it for some edges. -/
def listening : List Event :=
  tuned ++ List.replicate 300000 (.rtl 0)

/-- What the radio is asked for before it is tuned. -/
def greeting : List Action :=
  [.dest (helloDest loopback (text "127.0.0.1") (text "\x7b\"request_id\":1,\"cmd\":\"hello\"\x7d")
    "iq_port" 9001)]

/-- The edges that announce the configuration and the others. -/
def edges : List Action :=
  List.replicate 300003 (.rtl 0)

/-- The radio of the run once it is tuned. -/
def tunedRadio : Radio :=
  since loopback SdrPlCore.resetState (fun _ => 0) greeting true (requestedStream setRxLine)

theorem not_apply_edges (n : Nat) : ∀ a ∈ List.replicate n (Action.rtl 0), ¬a.IsApply := by
  intro a ha
  rw [List.eq_of_mem_replicate ha]
  exact id

variable {host} in
theorem actions_edges (s : CosimServer) (sample14 : BitVec 14) (n : Nat) :
    emits (step host) (actions host) s (List.replicate n (.rtl sample14)) =
      List.replicate n (.rtl sample14) := by
  induction n generalizing s with
  | zero =>
      rfl
  | succ n ih =>
      rw [List.replicate_succ, emits_cons, ih]
      rfl

theorem actions_listening :
    emits (step loopback) (actions loopback) (init loopback SdrPlCore.resetState (fun _ => 0))
        listening = greeting ++ .apply true (requestedStream setRxLine) :: edges := by
  have htuned : emits (step loopback) (actions loopback)
        (init loopback SdrPlCore.resetState (fun _ => 0)) tuned =
      greeting ++ .apply true (requestedStream setRxLine) :: List.replicate 3 (.rtl 0) := rfl
  rw [listening, emits_append, actions_edges, htuned, List.append_assoc, List.cons_append,
    List.replicate_append_replicate]
  rfl

/-- After forty edges the pipeline is filled, and the others are enough for four packets. -/
theorem completed_edges :
    4 ≤ (emits (act loopback) Radio.completed tunedRadio edges).length ∧
      ∀ d ∈ emits (act loopback) Radio.completed tunedRadio edges, d.1.valid = true := by
  have hedges : ∀ n, List.replicate n (Action.rtl 0) = (List.replicate n 0).map .rtl :=
    fun n => (List.map_replicate ..).symm
  constructor
  · have hsplit : edges = List.replicate 40 (.rtl 0) ++ List.replicate 299963 (.rtl 0) := by
      rw [edges, ← List.replicate_add]
    have hrst := rst_run loopback SdrPlCore.resetState (fun _ => 0) greeting
    have hconfigured := (Radio.phase_run loopback hrst (requestedStream setRxLine)
      (List.replicate 40 (.rtl 0)) (not_apply_edges 40)).1
    have hoften := Radio.completed_often loopback hconfigured (by decide +kernel)
      (by decide +kernel) (List.replicate 299963 0)
    have hbound : SdrPlCore.closeBound (requestedStream setRxLine).decimation = 64768 := by
      decide +kernel
    rw [hbound, List.length_replicate, ← hedges] at hoften
    rw [hsplit, emits_append, List.length_append]
    refine Nat.le_add_left_of_le (Nat.le_trans ?_ hoften)
    decide
  · intro d hd
    rw [edges, hedges] at hd
    rw [Radio.dest_of_completed loopback tunedRadio _ d hd]
    decide +kernel

theorem iq_datagrams_listening :
    emits (step loopback) (iqSent loopback)
          (init loopback SdrPlCore.resetState (fun _ => 0)) listening =
        emits (act loopback) Radio.completed tunedRadio edges ∧
      4 ≤ (emits (act loopback) Radio.completed tunedRadio edges).length ∧
        ∀ (k : Nat) (dest : Endpoint) (data : List Byte),
          (emits (act loopback) Radio.completed tunedRadio edges)[k]? = some (dest, data) →
            dest.valid = true ∧ data.length = 1088 ∧
              ∀ i ∈ emits (act loopback) Radio.started tunedRadio edges, i.frequencyHz = 7100000 := by
  rcases iq_datagrams loopback SdrPlCore.resetState (fun _ => 0) listening greeting edges true
    (requestedStream setRxLine) actions_listening (not_apply_edges _) with ⟨hsent, hpackets⟩
  have hbefore : emits (act loopback) Radio.sent
      (init loopback SdrPlCore.resetState (fun _ => 0)).radio greeting = [] := rfl
  refine ⟨?_, completed_edges.1, ?_⟩
  · rw [hsent, hbefore, List.nil_append]
    exact List.filter_eq_self.2 completed_edges.2
  · intro k dest data hk
    rcases hpackets k dest data hk with ⟨-, t0, -, hpacket, hdescribes⟩
    refine ⟨completed_edges.2 _ (List.mem_of_getElem? hk), hpacket.1, ?_⟩
    intro i hi
    rw [(hdescribes i hi).frequency]
    decide +kernel

/-! ## Received by the backend -/

/-- The datagrams that are completed after this configuration is applied. -/
def iqGrams (dut : SdrPlCore.State) (sample14 : Nat → BitVec 14) (before : List Action)
    (stream : StreamConfig) (after : List Action) : List (List Byte) :=
  (emits (act host) Radio.completed (since host dut sample14 before true stream) after).map Prod.snd

/-- What the header of a packet says of its configuration. -/
structure Labels (stream : StreamConfig) (header : Protocol.SdrIqHeader) : Prop where
  frequencyHz : header.frequencyHz = stream.frequencyHz.toNat
  iqSampleRateHz : header.iqSampleRateHz = stream.iqSampleRateHz.toNat
  bandwidthHz : header.bandwidthHz = stream.bandwidthHz.toNat
  decimation : header.decimation = (max stream.decimation.toNat 1 : Nat)

theorem labels_packetHeader {stream : StreamConfig} {i : IqPacketizer.Inputs}
    (h : Radio.Describes stream i) (t0 : BitVec 64) (n : Nat) :
    Labels stream
      (IqPacketizer.packetHeader packetizerParams t0 (stream.decimation.setWidth 32) n i) := by
  have hrate : (stream.decimation.setWidth 32).toNat = stream.decimation.toNat :=
    BitVec.toNat_setWidth_of_le (by decide)
  refine ⟨?_, ?_, ?_, ?_⟩
  · simp only [IqPacketizer.packetHeader, h.frequency]
  · simp only [IqPacketizer.packetHeader, h.rate]
  · simp only [IqPacketizer.packetHeader, h.bandwidth]
  · simp only [IqPacketizer.packetHeader, hrate]

/-- The datagrams `ns` of a configuration, as a backend has them once they have arrived in this
order. -/
structure Received (dut : SdrPlCore.State) (sample14 : Nat → BitVec 14) (es : List Event)
    (before : List Action) (stream : StreamConfig) (after : List Action) (state : Backend.AppState)
    (ns : List Nat) (header : Nat → Protocol.SdrIqHeader) : Prop where
  sent : ∀ n ∈ ns, ∃ dest, (dest, (iqGrams host dut sample14 before stream after).getD n []) ∈
    emits (step host) (iqSent host) (init host dut sample14) es
  samples : ∀ n ∈ ns,
    Backend.receivedIq ((iqGrams host dut sample14 before stream after).getD n []) =
      some (header n, wordBytes
        (((emits (act host) Radio.taken (since host dut sample14 before true stream) after).drop
          (n * 256)).take 256))
  labels : ∀ n ∈ ns, Labels stream (header n)
  counters : ∃ stats,
    (runFrom Backend.AppState.receive state
        (Backend.arrived (iqGrams host dut sample14 before stream after) ns)).streams.lookup 0 =
      some stats ∧
      Backend.Accounted ns (ns.map header) stats

/-- Whatever arrives of the datagrams of one configuration, a backend that has nothing of the stream yet
reads each as the down-converter's words under that configuration's header, and its counters say how
many of the others are missing and in how many places. -/
theorem iq_stream_received (dut : SdrPlCore.State) (sample14 : Nat → BitVec 14) (es : List Event)
    (before after : List Action) (stream : StreamConfig)
    (hactions : emits (step host) (actions host) (init host dut sample14) es =
      before ++ .apply true stream :: after)
    (hafter : ∀ a ∈ after, ¬a.IsApply) (state : Backend.AppState)
    (hnew : state.streams.lookup 0 = none) :
    ∀ first ns, List.IsChain Backend.Later (first :: ns) →
      (∀ n ∈ first :: ns, ∃ d,
        (emits (act host) Radio.completed (since host dut sample14 before true stream) after)[n]? =
            some d ∧ d.1.valid = true) →
        ∃ header, Received host dut sample14 es before stream after state (first :: ns) header := by
  intro first ns hlater hsent
  have hrst := rst_run host dut sample14 before
  have hgram : ∀ (n : Nat) (d : Endpoint × List Byte),
      (emits (act host) Radio.completed (since host dut sample14 before true stream) after)[n]? =
          some d → (iqGrams host dut sample14 before stream after)[n]? = some d.2 := by
    intro n d hd
    rw [iqGrams, List.getElem?_map, hd]
    rfl
  have hlen : ∀ n ∈ first :: ns, n < (iqGrams host dut sample14 before stream after).length := by
    intro n hn
    rcases hsent n hn with ⟨d, hd, -⟩
    exact (List.getElem?_eq_some_iff.1 (hgram n d hd)).1
  -- There has been an announcement, and the timestamps count from it.
  rcases hsent first (by simp) with ⟨d₀, hd₀, -⟩
  rcases packet_of_completed hafter hd₀ with ⟨t0, hseed, -⟩
  have hpackets : ∀ n data, (iqGrams host dut sample14 before stream after)[n]? = some data →
      IsPacket t0 stream.decimation
        (emits (act host) Radio.started (since host dut sample14 before true stream) after)
        (emits (act host) Radio.taken (since host dut sample14 before true stream) after) n
        data := by
    intro n data hget
    rw [iqGrams, List.getElem?_map] at hget
    rcases Option.map_eq_some_iff.1 hget with ⟨d, hd, rfl⟩
    rcases packet_of_completed hafter hd with ⟨t1, hseed', hpacket⟩
    rw [hseed] at hseed'
    rw [List.head_eq_of_cons_eq hseed']
    exact hpacket
  rcases Backend.packets_accounted hpackets hnew hlater hlen with ⟨header, hpacket, haccounted⟩
  refine ⟨header, ?_, fun n hn => (hpacket n hn).1, ?_, haccounted⟩
  · intro n hn
    rcases hsent n hn with ⟨d, hd, hvalid⟩
    refine ⟨d.1, ?_⟩
    rw [List.getD_eq_getElem?_getD, hgram n d hd, Option.getD_some, iqSent_since hactions]
    refine List.mem_append_right _ ?_
    rw [since, Radio.sent_run host hrst stream after hafter]
    exact List.mem_filter.2 ⟨List.mem_of_getElem? hd, hvalid⟩
  · intro n hn
    rcases (hpacket n hn).2 with ⟨i, hi, hheader⟩
    rw [hheader]
    exact labels_packetHeader
      (Radio.describes_run host hrst stream after hafter i (List.mem_of_getElem? hi)) t0 n

/-- Of four packets the second is lost. -/
theorem iq_stream_received_listening :
    ∃ header stats,
      Received loopback SdrPlCore.resetState (fun _ => 0) listening greeting
          (requestedStream setRxLine) edges {} [0, 2] header ∧
        (runFrom Backend.AppState.receive {}
            (Backend.arrived (iqGrams loopback SdrPlCore.resetState (fun _ => 0) greeting
              (requestedStream setRxLine) edges) [0, 2])).streams.lookup 0 = some stats ∧
          stats.packets = 2 ∧ (stats.lostPackets : Int) = 1 ∧ stats.timestampGaps = 1 := by
  have hsent : ∀ n ∈ [0, 2], ∃ d,
      (emits (act loopback) Radio.completed tunedRadio edges)[n]? = some d ∧ d.1.valid = true := by
    intro n hn
    have hlt : n < (emits (act loopback) Radio.completed tunedRadio edges).length := by
      refine Nat.lt_of_lt_of_le ?_ completed_edges.1
      simp only [List.mem_cons, List.not_mem_nil, or_false] at hn
      omega
    exact ⟨_, List.getElem?_eq_getElem hlt, completed_edges.2 _ (List.getElem_mem hlt)⟩
  rcases iq_stream_received loopback SdrPlCore.resetState (fun _ => 0) listening greeting edges
    (requestedStream setRxLine) actions_listening (not_apply_edges _) {} rfl 0 [2]
    (by simp [Backend.Later]) hsent with ⟨header, hreceived⟩
  rcases hreceived.counters with ⟨stats, hlookup, haccounted⟩
  exact ⟨header, stats, hreceived, hlookup, haccounted.packets, haccounted.lostPackets,
    haccounted.timestampGaps⟩

end CosimServer

end Cosim
end Sdr
