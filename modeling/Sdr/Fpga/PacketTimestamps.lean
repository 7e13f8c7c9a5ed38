import Sdr.Fpga.EventFlags
import Sdr.Fpga.IqHeader
import Mathlib.Data.Int.ModEq

/-!
# PacketTimestamps — the ADC tick in the header against the samples in the packet

The packetizer reckons the timestamp of a packet from that of the packet before.  It does not see the
samples that `ddc_core` drops in front of it, so after a drop the timestamps are behind the samples.

An observer (`Observer`) numbers the output samples of the down-converter, kept or dropped, and notes
for every packet which of them is its first.  As long as nothing is dropped, sample numbers and
timestamps go together (`timestamps_agree`).
-/

namespace Sdr
namespace Fpga
namespace SdrPlCore

open Lib Protocol
open IqPacketizer (Framed Numbered Packet headerOf)

/-! ## The observer -/

/-- A packet that has been put out whole: its header, and the number of its first sample. -/
structure Emitted where
  header : SdrIqHeader
  first : Nat

structure Observer where
  /-- The output samples of the down-converter so far. -/
  produced : Nat
  /-- The one in its output register. -/
  held : Nat
  /-- The first one of the packet being sent. -/
  first : Nat
  packets : List Emitted

def Observer.start : Observer where
  produced := 0
  held := 0
  first := 0
  packets := []

/-- `sat_valid`: the down-converter has a new output sample. -/
def satValid (s : State) : Bool :=
  s.ddc.gainSat.validOut

/-- `load_output` of the down-converter. -/
def loadOutput (s : State) (i : Inputs) : Bool :=
  DdcCore.loadOutput s.ddc (ddcInputs s i)

/-- The packetizer takes the sample from the output register. -/
def takes (s : State) (i : Inputs) : Bool :=
  s.ddc.mAxisTvalid && IqPacketizer.sAxisTready s.iq (packetizerInputs s i)

def observe (o : Observer) (s : State) (i : Inputs) : Observer :=
  let first := if takes s i && (s.iq.payloadCount == 0) then o.held else o.first
  { produced := o.produced + (satValid s).toNat
    held := if satValid s && loadOutput s i then o.produced else o.held
    first := first
    packets :=
      -- The header of a packet is what the registers say when it closes, see `Packet.regs`.
      if takes s i && (s.iq.payloadCount == packetizerParams.frameSamples - 1) then
        o.packets ++ [{ header := headerOf packetizerParams s.iq, first := first }]
      else
        o.packets }

/-- The state and what the observer knows, after the edges `is` out of reset. -/
def observed (is : List Inputs) : State × Observer :=
  runFrom (fun so i => (step so.1 i, observe so.2 so.1 i)) (resetState, Observer.start) is

/-- From the first sample of one packet to the first of the other the timestamp advances by the
decimation per sample. -/
def InStep (decimation : Nat) (a b : Emitted) : Prop :=
  b.header.adcTimestamp - a.header.adcTimestamp ≡ decimation * ((b.first : Int) - a.first)
    [ZMOD 2 ^ 64]

/-- The samples per output sample; a rate of zero counts as one. -/
def decimation (c : Inputs) : Nat :=
  max c.ddc0DecimRate.toNat 1

/-- The edge drops no sample. -/
def NoDrop (s : State) (i : Inputs) : Prop :=
  satValid s = true → loadOutput s i = true

instance (s : State) (i : Inputs) : Decidable (NoDrop s i) :=
  inferInstanceAs (Decidable (_ → _))

/-! ## The invariant -/

/-- What the observer knows against the packets and words of the packetizer. -/
structure Counted (words : List (BitVec 32)) (s : State) (o : Observer) (packets : List Packet)
    (current : List (BitVec 32)) : Prop where
  produced : o.produced = words.length + s.ddc.mAxisTvalid.toNat
  held : s.ddc.mAxisTvalid = true → o.held + 1 = o.produced
  first : current ≠ [] → o.first = 256 * packets.length
  length : o.packets.length = packets.length
  recorded : ∀ k e, o.packets[k]? = some e →
    e.first = 256 * k ∧ ∃ q, packets[k]? = some q ∧ e.header = headerOf packetizerParams q.regs

section Step

variable {s : State} {i : Inputs} {o : Observer} {out : List IqPacketizer.Word}
  {words current : List (BitVec 32)} {packets : List Packet}

theorem takes_eq_true : takes s i = true ↔
    s.ddc.mAxisTvalid = true ∧ s.iq.state = .payload ∧
      IqPacketizer.outReady s.iq (packetizerInputs s i) = true := by
  simp [takes, IqPacketizer.sAxisTready]

theorem length_taken (s : State) (i : Inputs) :
    (IqPacketizer.taken s.iq (packetizerInputs s i)).length = (takes s i).toNat := by
  have htaken : IqPacketizer.taken s.iq (packetizerInputs s i) =
      if takes s i then [s.ddc.mAxisTdata] else [] := rfl
  rw [htaken]
  cases takes s i <;> rfl

/-- An undropped sample goes to the output register, where it stays until it is taken. -/
theorem mAxisTvalid_step (hrst : i.rst = false) (hdrop : NoDrop s i) :
    (step s i).ddc.mAxisTvalid = (satValid s || s.ddc.mAxisTvalid && !takes s i) := by
  have hrst' : (ddcInputs s i).rst = false := hrst
  have htakes : takes s i = (s.ddc.mAxisTvalid && (ddcInputs s i).mAxisTready) := rfl
  have hstep : (step s i).ddc.mAxisTvalid =
      (DdcCore.output s.ddc (ddcInputs s i)
        (DdcCore.pipeline s.ddc (ddcInputs s i))).mAxisTvalid := rfl
  rw [hstep, htakes]
  unfold DdcCore.output
  cases hsat : satValid s with
  | true =>
      have hload : DdcCore.loadOutput s.ddc (ddcInputs s i) = true := hdrop hsat
      have hvalid : s.ddc.gainSat.validOut = true := hsat
      simp [hrst', hvalid, hload]
  | false =>
      have hvalid : s.ddc.gainSat.validOut = false := hsat
      have hkeep : (DdcCore.pipeline s.ddc (ddcInputs s i)).mAxisTvalid = s.ddc.mAxisTvalid := rfl
      cases htv : s.ddc.mAxisTvalid <;> cases hrdy : (ddcInputs s i).mAxisTready <;>
        simp [hrst', hvalid, htv, hkeep]

/-- The sample being taken is the first of its packet, or the observer has noted the first. -/
theorem Counted.first_of_takes (h : Counted words s o packets current)
    (hf : Framed packetizerParams out s.iq packets current)
    (hwords : words = packets.flatMap Packet.payload ++ current) (htakes : takes s i = true) :
    (if takes s i && (s.iq.payloadCount == 0) then o.held else o.first) = 256 * packets.length := by
  rcases takes_eq_true.1 htakes with ⟨hvalid, hpayload, _⟩
  have hcount := hf.count_eq hpayload
  have hlen : words.length = packets.length * 256 + current.length :=
    IqPacketizer.length_words hf hwords
  by_cases hzero : s.iq.payloadCount = 0
  · have hheld := h.held hvalid
    have hproduced := h.produced
    rw [hvalid, Bool.toNat_true] at hproduced
    rw [hzero] at hcount
    simp only [BitVec.ofNat_eq_ofNat, BitVec.toNat_ofNat, Nat.zero_mod] at hcount
    simp only [htakes, hzero, beq_self_eq_true, Bool.and_self, if_true]
    omega
  · have hne : current ≠ [] := by
      intro hnil
      apply hzero
      apply BitVec.eq_of_toNat_eq
      rw [← hcount, hnil]
      rfl
    simp only [htakes, beq_eq_false_iff_ne.2 hzero, Bool.and_false, Bool.false_eq_true, if_false]
    exact h.first hne

/-- The counts of samples after an edge that drops none. -/
theorem counted_produced (h : Counted words s o packets current) (hrst : i.rst = false)
    (hdrop : NoDrop s i) :
    (observe o s i).produced =
        (words ++ IqPacketizer.taken s.iq (packetizerInputs s i)).length +
          (step s i).ddc.mAxisTvalid.toNat ∧
      ((step s i).ddc.mAxisTvalid = true → (observe o s i).held + 1 = (observe o s i).produced) := by
  have hproduced := h.produced
  have hheld := h.held
  have hload : loadOutput s i = (!s.ddc.mAxisTvalid || takes s i) := by
    have htakes : takes s i = (s.ddc.mAxisTvalid && (ddcInputs s i).mAxisTready) := rfl
    rw [loadOutput, DdcCore.loadOutput, htakes]
    cases s.ddc.mAxisTvalid <;> simp
  have hkept : satValid s = true → loadOutput s i = true := hdrop
  have htaken : takes s i = true → s.ddc.mAxisTvalid = true := fun ht => (takes_eq_true.1 ht).1
  rw [List.length_append, length_taken, mAxisTvalid_step hrst hdrop]
  simp only [observe]
  rw [hload] at hkept ⊢
  cases hsat : satValid s <;> cases hvalid : s.ddc.mAxisTvalid <;> cases htakes : takes s i <;>
    simp_all

/-- While no sample is taken no packet closes, and the packet being sent gets no new sample. -/
theorem next_of_not_takes (htakes : takes s i = false) :
    IqPacketizer.nextPackets packetizerParams s.iq (packetizerInputs s i) packets current = packets ∧
      (IqPacketizer.nextCurrent packetizerParams s.iq (packetizerInputs s i) current ≠ [] →
        IqPacketizer.nextCurrent packetizerParams s.iq (packetizerInputs s i) current = current) := by
  have hnot : ¬ (s.ddc.mAxisTvalid = true ∧ s.iq.state = .payload ∧
      IqPacketizer.outReady s.iq (packetizerInputs s i) = true) := by
    rw [← takes_eq_true, htakes]
    simp
  refine ⟨if_neg (fun hc => hnot ⟨hc.2.2.1, hc.2.1, hc.1⟩), ?_⟩
  unfold IqPacketizer.nextCurrent
  split
  · next hready =>
      split
      · next hpayload =>
          split
          · next hvalid => exact absurd ⟨hvalid, hpayload, hready⟩ hnot
          · exact fun _ => rfl
      · exact fun hne => absurd rfl hne
  · exact fun _ => rfl

/-- A sample that is taken closes the packet or is added to it. -/
theorem next_of_takes (packets : List Packet) (current : List (BitVec 32))
    (htakes : takes s i = true) :
    IqPacketizer.nextPackets packetizerParams s.iq (packetizerInputs s i) packets current =
        (if s.iq.payloadCount = packetizerParams.frameSamples - 1 then
          packets ++ [{ regs := s.iq, samples := current, final := s.ddc.mAxisTdata }]
        else packets) ∧
      IqPacketizer.nextCurrent packetizerParams s.iq (packetizerInputs s i) current =
        (if s.iq.payloadCount = packetizerParams.frameSamples - 1 then []
        else current ++ [s.ddc.mAxisTdata]) := by
  rcases takes_eq_true.1 htakes with ⟨hvalid, hpayload, hready⟩
  have hvalid' : (packetizerInputs s i).sAxisTvalid = true := hvalid
  constructor
  · simp only [IqPacketizer.nextPackets, hready, hpayload, hvalid', true_and]
    rfl
  · simp only [IqPacketizer.nextCurrent, hready, hpayload, hvalid', if_true]
    rfl

theorem counted_step (h : Counted words s o packets current)
    (hf : Framed packetizerParams out s.iq packets current)
    (hwords : words = packets.flatMap Packet.payload ++ current) (hrst : i.rst = false)
    (hdrop : NoDrop s i) :
    Counted (words ++ IqPacketizer.taken s.iq (packetizerInputs s i)) (step s i) (observe o s i)
      (IqPacketizer.nextPackets packetizerParams s.iq (packetizerInputs s i) packets current)
      (IqPacketizer.nextCurrent packetizerParams s.iq (packetizerInputs s i) current) := by
  rcases counted_produced h hrst hdrop with ⟨hproduced, hheld⟩
  cases htakes : takes s i with
  | false =>
      rcases next_of_not_takes htakes with ⟨hpackets, hcurrent⟩
      rw [hpackets]
      refine ⟨hproduced, hheld, ?_, ?_, ?_⟩
      · intro hne
        rw [hcurrent hne] at hne
        simpa [observe, htakes] using h.first hne
      · simpa [observe, htakes] using h.length
      · simpa [observe, htakes] using h.recorded
  | true =>
      rcases next_of_takes packets current htakes with ⟨hpackets, hcurrent⟩
      have hfirst := h.first_of_takes hf hwords htakes
      rw [hpackets, hcurrent]
      by_cases hlast : s.iq.payloadCount = packetizerParams.frameSamples - 1
      · -- The packet closes, and its first sample has been noted.
        rw [if_pos hlast, if_pos hlast]
        have hobserved : (observe o s i).packets =
            o.packets ++ [{ header := headerOf packetizerParams s.iq, first := 256 * packets.length }] := by
          simp only [observe]
          rw [hfirst]
          simp [htakes, hlast]
        refine ⟨hproduced, hheld, fun hne => absurd rfl hne, ?_, ?_⟩
        · rw [hobserved, List.length_append, List.length_append, h.length]
          rfl
        · intro k e he
          rw [hobserved] at he
          rcases Nat.lt_or_ge k o.packets.length with hk | hk
          · rw [List.getElem?_append_left hk] at he
            rw [List.getElem?_append_left (by rw [← h.length]; exact hk)]
            exact h.recorded k e he
          · rw [List.getElem?_append_right hk, List.getElem?_singleton] at he
            split at he
            · next hkeq =>
                have hk' : k = packets.length := by
                  rw [← h.length]
                  omega
                rw [← Option.some.inj he, hk']
                exact ⟨rfl, _, List.getElem?_concat_length, rfl⟩
            · cases he
      · rw [if_neg hlast, if_neg hlast]
        have hobserved : (observe o s i).packets = o.packets := by
          simp only [observe, beq_eq_false_iff_ne.2 hlast, Bool.and_false, Bool.false_eq_true, if_false]
        refine ⟨hproduced, hheld, fun _ => hfirst, ?_, ?_⟩
        · rw [hobserved]
          exact h.length
        · rw [hobserved]
          exact h.recorded

end Step

/-! ## Runs -/

theorem observed_fst (is : List Inputs) : (observed is).1 = run is := by
  have h : runFrom step (Prod.fst (resetState, Observer.start)) is = (observed is).1 :=
    runFrom_simulates (fun _ _ => rfl) (resetState, Observer.start) is
  exact h.symm

theorem observed_snoc (is : List Inputs) (i : Inputs) :
    (observed (is ++ [i])).2 = observe (observed is).2 (run is) i := by
  rw [← observed_fst, observed, runFrom_snoc]
  rfl

/-- The packets so far, their numbers and the observer's notes. -/
structure Timed (c : Inputs) (is : List Inputs) (s : State) (packets : List Packet)
    (current : List (BitVec 32)) : Prop where
  framed : ∃ out, Framed packetizerParams out s.iq packets current
  counted : ∃ starts words,
    Numbered packetizerParams 0 (c.ddc0DecimRate.setWidth 32) starts words s.iq packets current ∧
      Counted words s (observed is).2 packets current

theorem timed_nil (c : Inputs) : Timed c [] resetState [] [] where
  framed := ⟨[], IqPacketizer.framed_reset packetizerParams⟩
  counted := by
    refine ⟨[], [], ⟨by simp, fun _ => ⟨rfl, rfl, ?_, rfl⟩, ?_, rfl, fun _ => rfl⟩, ?_⟩
    · simp [IqPacketizer.stamp, resetState, IqPacketizer.resetState]
    · simp [resetState, IqPacketizer.resetState]
    · refine ⟨rfl, ?_, fun hne => absurd rfl hne, rfl, ?_⟩
      · simp [resetState, DdcCore.resetState]
      · intro k e he
        cases he

theorem timed_run (c : Inputs) (is : List Inputs) (his : ∀ i ∈ is, Streaming i ∧ SameConfig c i)
    (hdrop : Along step NoDrop resetState is) :
    ∃ packets current, Timed c is (run is) packets current := by
  refine history_invariant (P := fun is s => ∃ packets current, Timed c is s packets current)
    (C := fun s i => (Streaming i ∧ SameConfig c i) ∧ NoDrop s i) ⟨[], [], timed_nil c⟩ ?_ is ?_
  · rintro is i ⟨packets, current, ⟨out, hf⟩, starts, words, hn, hcounted⟩ ⟨⟨hi, hc⟩, hkeep⟩
    have hd : (packetizerInputs (run is) i).decimation = c.ddc0DecimRate.setWidth 32 := by
      rw [hc]
      rfl
    refine ⟨_, _, ⟨_, IqPacketizer.framed_step (i := packetizerInputs (run is) i) (by decide) hf hi⟩,
      _, _, IqPacketizer.numbered_step hn hf.legal hi hd, ?_⟩
    rw [observed_snoc]
    exact counted_step hcounted hf hn.words_eq hi.1 hkeep
  · exact hdrop.and_mem his

/-- As long as no sample is dropped, the timestamps of any two packets are as far apart as their first
samples. -/
theorem timestamps_agree (c : Inputs) (is : List Inputs)
    (his : ∀ i ∈ is, Streaming i ∧ SameConfig c i) (hdrop : Along step NoDrop resetState is) :
    ∀ a ∈ (observed is).2.packets, ∀ b ∈ (observed is).2.packets, InStep (decimation c) a b := by
  rcases timed_run c is his hdrop with ⟨packets, current, _, starts, words, hn, hcounted⟩
  have hstamp : ∀ e ∈ (observed is).2.packets,
      e.header.adcTimestamp ≡ decimation c * e.first [ZMOD 2 ^ 64] := by
    intro e he
    rcases List.getElem?_of_mem he with ⟨k, hk⟩
    rcases hcounted.recorded k e hk with ⟨hfirst, q, hq, hheader⟩
    rcases hn.whole k q hq with ⟨j, _, hlatched⟩
    have hrate : (c.ddc0DecimRate.setWidth 32).toNat = c.ddc0DecimRate.toNat :=
      BitVec.toNat_setWidth_of_le (by decide)
    have htimestamp : e.header.adcTimestamp = ((k * (decimation c * 256) % 2 ^ 64 : Nat) : Int) := by
      rw [hheader, headerOf]
      simp only [hlatched.timestamp, IqPacketizer.stamp, BitVec.toNat_ofNat, hrate]
      simp [packetizerParams, decimation]
    rw [htimestamp, hfirst]
    push_cast
    calc
      (k * (decimation c * 256) : Int) % 2 ^ 64 ≡ k * (decimation c * 256) [ZMOD 2 ^ 64] :=
        Int.mod_modEq _ _
      _ = decimation c * (256 * k) := by ring
  intro a ha b hb
  unfold InStep
  rw [Int.mul_sub]
  exact (hstamp b hb).sub (hstamp a ha)

/-! ### Two packets -/

/-- Bursts of samples with a pause that is long enough for the next header. -/
def paused : List Inputs :=
  List.replicate 256 streamingInputs ++
    List.replicate 20 { streamingInputs with adcSampleValid := false } ++
      List.replicate 256 streamingInputs ++
        List.replicate 24 { streamingInputs with adcSampleValid := false }

theorem timestamps_agree_paused :
    (observed paused).2.packets.length = 2 ∧
      ∀ a ∈ (observed paused).2.packets, ∀ b ∈ (observed paused).2.packets,
        InStep (decimation streamingInputs) a b :=
  ⟨by decide +kernel,
    timestamps_agree streamingInputs paused (by decide +kernel) (by decide +kernel)⟩

/-- The sink is not ready for the first twenty cycles. -/
def lateSink : List Inputs :=
  List.replicate 20 { streamingInputs with mAxisIqTready := false } ++
    List.replicate 544 streamingInputs

/-- Twelve samples are dropped between the first two samples of the first packet, and the timestamp of
the second packet does not know of them. -/
theorem not_timestamps_agree_lateSink :
    ¬ ∀ (c : Inputs) (is : List Inputs), (∀ i ∈ is, Streaming i ∧ SameConfig c i) →
      ∀ a ∈ (observed is).2.packets, ∀ b ∈ (observed is).2.packets, InStep (decimation c) a b := by
  intro h
  have hall := h streamingInputs lateSink (by decide +kernel)
  have hpackets : (observed lateSink).2.packets.map (fun e => (e.header.adcTimestamp, e.first)) =
      [(0, 0), (256, 268)] := by decide +kernel
  have hmem : ∀ x ∈ [((0 : Int), 0), (256, 268)],
      ∃ e ∈ (observed lateSink).2.packets, (e.header.adcTimestamp, e.first) = x := by
    intro x hx
    rw [← hpackets] at hx
    exact List.mem_map.1 hx
  rcases hmem (0, 0) (by simp) with ⟨a, ha, haeq⟩
  rcases hmem (256, 268) (by simp) with ⟨b, hb, hbeq⟩
  have hstep := hall a ha b hb
  rw [Prod.mk.injEq] at haeq hbeq
  rw [InStep, haeq.1, haeq.2, hbeq.1, hbeq.2] at hstep
  revert hstep
  decide

end SdrPlCore
end Fpga
end Sdr
