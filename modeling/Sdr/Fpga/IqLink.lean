import Sdr.Fpga.FifoLossless
import Sdr.Fpga.IqHeader
import Sdr.Fpga.SdrPlCore

/-!
# IqLink — from the signal path through the clock crossing to the DMA

The wiring of `u_sdr_pl_core` and `u_iq_axis_cdc_fifo` in `fpga/rtl/top/sdr_top.v`.  The packet stream
leaves the ADC clock domain through the FIFO, whose `s_tready` is the back-pressure on the packetizer;
the DMA takes the words at the other end, on the AXI clock.

* `delivered_isPrefix` — the DMA gets the packetizer's words in order, none lost, none twice;
* `groups_delivered` — what it gets between two words with `tlast` is one whole packet.
-/

namespace Sdr
namespace Fpga

namespace IqPacketizer

open Lib

/-- Words that follow close no other groups before their own. -/
theorem groups_prefix (openGroup xs ys : List Word) :
    groups openGroup xs <+: groups openGroup (xs ++ ys) := by
  induction xs generalizing openGroup with
  | nil =>
      exact List.nil_prefix
  | cons w xs ih =>
      simp only [groups, List.cons_append]
      split_ifs
      · exact List.cons_prefix_cons.2 ⟨rfl, ih []⟩
      · exact ih (openGroup ++ [w])

/-- Where a stream begins nothing has been put out, and packet 0 comes next. -/
theorem framed_numbered_begin {p : Params} {s : State} {t0 : BitVec 64} (hbegin : Begins p s t0)
    (d : BitVec 32) : Framed p [] s [] [] ∧ Numbered p t0 d [] [] s [] [] := by
  rcases begins_spec hbegin d with ⟨-, hidle, hready⟩
  refine ⟨?_, ?_⟩
  · refine ⟨by simp [partialWords, hidle], ?_, ?_, ?_, ?_, ?_, ?_, ?_⟩
    all_goals simp [hidle]
  · exact ⟨by simp, fun _ => ⟨rfl, hready⟩, by simp [hidle], by simp, fun _ => rfl⟩

/-- A stream of one configuration, from its start: the packets put out, and what their headers say. -/
theorem framed_numbered_run {p : Params} (hN : p.frameSamples ≠ 0) {d : BitVec 32} {s : State}
    {t0 : BitVec 64} (hbegin : Begins p s t0) (is : List Inputs)
    (his : ∀ i ∈ is, Streaming i ∧ i.decimation = d) :
    ∃ packets current,
      Framed p (emits (step p) (put p) s is) (runFrom (step p) s is) packets current ∧
        Numbered p t0 d (emits (step p) started s is) (emits (step p) taken s is)
          (runFrom (step p) s is) packets current := by
  rcases framed_numbered_begin hbegin d with ⟨hframed, hnumbered⟩
  refine history_invariant (C := fun _ i => Streaming i ∧ i.decimation = d)
    (P := fun is' s' => ∃ packets current,
      Framed p (emits (step p) (put p) s is') s' packets current ∧
        Numbered p t0 d (emits (step p) started s is') (emits (step p) taken s is') s' packets
          current)
    ⟨[], [], hframed, hnumbered⟩ ?_ is (along_of_forall (fun _ i hi => his i hi))
  · rintro es i ⟨packets, current, hf, hn⟩ ⟨hi, hd⟩
    rw [emits_snoc, emits_snoc, emits_snoc]
    exact ⟨_, _, framed_step hN hf hi, numbered_step hn hf.legal hi hd⟩

end IqPacketizer

namespace IqLink

open Lib
open IqPacketizer (Word Packet Framed Numbered groups)

/-! ## The word in the FIFO -/

/-- `{iq_adc_tlast, iq_adc_tkeep, iq_adc_tdata}`. -/
def packWord (w : Word) : BitVec 37 :=
  BitVec.ofBool w.last ++ w.keep ++ w.data

/-- The same concatenation on the left of an assignment. -/
def unpackWord (b : BitVec 37) : Word where
  data := b.extractLsb' 0 32
  keep := b.extractLsb' 32 4
  last := b.getLsbD 36

theorem unpackWord_packWord (w : Word) : unpackWord (packWord w) = w := by
  rcases w with ⟨data, keep, last⟩
  have hdata : (packWord ⟨data, keep, last⟩).extractLsb' 0 32 = data := by
    apply BitVec.eq_of_getLsbD_eq
    intro i hi
    rw [BitVec.getLsbD_extractLsb', Nat.zero_add, packWord, BitVec.getLsbD_append]
    simp [hi]
  have hkeep : (packWord ⟨data, keep, last⟩).extractLsb' 32 4 = keep := by
    apply BitVec.eq_of_getLsbD_eq
    intro i hi
    rw [BitVec.getLsbD_extractLsb', packWord, BitVec.getLsbD_append, BitVec.getLsbD_append]
    simp [hi]
  have hlast : (packWord ⟨data, keep, last⟩).getLsbD 36 = last := by
    rw [packWord, BitVec.getLsbD_append, BitVec.getLsbD_append]
    simp
  rw [unpackWord, hdata, hkeep, hlast]

/-! ## The two machines -/

structure State where
  core : SdrPlCore.State
  fifo : AxisAsyncFifo.State 37 10

/-- One instant: the clocks that rise, the ports of the signal path, those of the DMA, and what the
synchronisers of the FIFO see.  `core.mAxisIqTready` is not a port here, it comes from the FIFO. -/
structure Tick where
  adcClk : Bool
  axiClk : Bool
  core : SdrPlCore.Inputs
  ctrlRst : Bool
  mAxisIqTready : Bool
  sSees : BitVec 11
  mSees : BitVec 11

def coreInputs (s : State) (t : Tick) : SdrPlCore.Inputs :=
  { t.core with mAxisIqTready := AxisAsyncFifo.sTready s.fifo }

/-- The word on `iq_adc_tdata`, `iq_adc_tkeep` and `iq_adc_tlast`. -/
def iqAdcWord (s : IqPacketizer.State) : Word where
  data := s.mAxisTdata
  keep := s.mAxisTkeep
  last := s.mAxisTlast

def fifoTick (s : State) (t : Tick) : AxisAsyncFifo.Tick 37 10 where
  sClk := t.adcClk
  sRst := t.core.rst
  sTdata := packWord (iqAdcWord s.core.iq)
  sTvalid := s.core.iq.mAxisTvalid
  mClk := t.axiClk
  mRst := t.ctrlRst
  mTready := t.mAxisIqTready
  sSees := t.sSees
  mSees := t.mSees

def step (s : State) (t : Tick) : State where
  core := if t.adcClk then SdrPlCore.step s.core (coreInputs s t) else s.core
  fifo := AxisAsyncFifo.step s.fifo (fifoTick s t)

/-- The word the DMA accepts at an instant. -/
def delivered (s : State) (t : Tick) : List Word :=
  (AxisAsyncFifo.popped s.fifo (fifoTick s t)).map unpackWord

/-- What the packetizer is given at an instant. -/
def packetizerFed (s : State) (t : Tick) : List IqPacketizer.Inputs :=
  if t.adcClk then [SdrPlCore.packetizerInputs s.core (coreInputs s t)] else []

/-- The IQ word the packetizer takes from the down-converter. -/
def taken (s : State) (t : Tick) : List (BitVec 32) :=
  (packetizerFed s t).flatMap (IqPacketizer.taken s.core.iq)

/-- The inputs a packet latches, at the instant that starts it. -/
def started (s : State) (t : Tick) : List IqPacketizer.Inputs :=
  (packetizerFed s t).flatMap (IqPacketizer.started s.core.iq)

/-- No reset, enabled, no change of configuration, and one decimation throughout. -/
def Streaming (d : BitVec 16) (t : Tick) : Prop :=
  SdrPlCore.Streaming t.core ∧ t.ctrlRst = false ∧ t.core.ddc0DecimRate = d

instance (d : BitVec 16) (t : Tick) : Decidable (Streaming d t) :=
  inferInstanceAs (Decidable (_ ∧ _ ∧ _))

/-! ## Each machine on its own -/

section Parts

variable {d : BitVec 16} {s : State} {ts : List Tick}

theorem iq_step (s : State) (t : Tick) :
    (step s t).core.iq =
      runFrom (IqPacketizer.step SdrPlCore.packetizerParams) s.core.iq (packetizerFed s t) := by
  unfold packetizerFed step
  cases t.adcClk <;> rfl

theorem iq_run (s : State) (ts : List Tick) :
    (runFrom step s ts).core.iq =
      runFrom (IqPacketizer.step SdrPlCore.packetizerParams) s.core.iq
        (emits step packetizerFed s ts) :=
  runFrom_feeds (g := fun s => s.core.iq) iq_step s ts

/-- What the packetizer emits at an instant it emits at its edge, if there is one. -/
theorem emits_packetizer {α : Type} (out : IqPacketizer.State → IqPacketizer.Inputs → List α)
    (s : State) (ts : List Tick) :
    emits step (fun s t => (packetizerFed s t).flatMap (out s.core.iq)) s ts =
      emits (IqPacketizer.step SdrPlCore.packetizerParams) out s.core.iq
        (emits step packetizerFed s ts) := by
  refine emits_feeds (g := fun s => s.core.iq) iq_step ?_ s ts
  intro s t
  unfold packetizerFed
  cases t.adcClk <;> simp

/-- Every edge of the packetizer is a streaming one. -/
theorem fed_streaming (hts : ∀ t ∈ ts, Streaming d t) :
    ∀ i ∈ emits step packetizerFed s ts,
      IqPacketizer.Streaming i ∧ i.decimation = d.setWidth 32 := by
  refine forall_mem_emits (D := Streaming d) ?_ hts
  intro s t ht i hi
  unfold packetizerFed at hi
  split_ifs at hi
  · rcases List.mem_singleton.1 hi with rfl
    exact ⟨ht.1, congrArg (BitVec.setWidth 32) ht.2.2⟩
  · simp at hi

/-- The words the FIFO takes are those the packetizer gets rid of. -/
theorem pushed_eq (ht : Streaming d t) (s : State) :
    AxisAsyncFifo.pushed s.fifo (fifoTick s t) =
      ((packetizerFed s t).flatMap (IqPacketizer.accepted s.core.iq)).map packWord := by
  have hrst : t.core.rst = false := ht.1.1
  unfold packetizerFed
  cases hclk : t.adcClk with
  | false =>
      simp [AxisAsyncFifo.pushed, fifoTick, hclk]
  | true =>
      cases hvalid : s.core.iq.mAxisTvalid <;> cases hready : AxisAsyncFifo.sTready s.fifo <;>
        simp [AxisAsyncFifo.pushed, fifoTick, hclk, hrst, hvalid, hready, IqPacketizer.accepted,
          IqPacketizer.pending, SdrPlCore.packetizerInputs, coreInputs, iqAdcWord]

/-- The DMA gets the words of the packetizer in order, and at most a FIFO full later. -/
theorem delivered_isPrefix {mem : BitVec 10 → BitVec 37} (hempty : s.fifo = AxisAsyncFifo.resetState mem)
    (hts : ∀ t ∈ ts, Streaming d t) :
    emits step delivered s ts <+:
      emits (IqPacketizer.step SdrPlCore.packetizerParams) IqPacketizer.accepted s.core.iq
        (emits step packetizerFed s ts) := by
  have hquiet : ∀ t ∈ emits step (fun s t => [fifoTick s t]) s ts, AxisAsyncFifo.NoReset t := by
    refine forall_mem_emits (D := Streaming d) ?_ hts
    intro s t ht tick htick
    rcases List.mem_singleton.1 htick with rfl
    exact ⟨ht.1.1, ht.2.1⟩
  rcases AxisAsyncFifo.holds_run (by decide) mem _ hquiet with ⟨c, hc⟩
  have hpopped : emits step (fun s t => AxisAsyncFifo.popped s.fifo (fifoTick s t)) s ts =
      emits AxisAsyncFifo.step AxisAsyncFifo.popped s.fifo
        (emits step (fun s t => [fifoTick s t]) s ts) :=
    emits_feeds (g := State.fifo) (fun _ _ => rfl) (fun _ _ => by simp) s ts
  have hpushed : emits AxisAsyncFifo.step AxisAsyncFifo.pushed s.fifo
        (emits step (fun s t => [fifoTick s t]) s ts) =
      (emits (IqPacketizer.step SdrPlCore.packetizerParams) IqPacketizer.accepted s.core.iq
        (emits step packetizerFed s ts)).map packWord := by
    have hfifo : emits step (fun s t => AxisAsyncFifo.pushed s.fifo (fifoTick s t)) s ts =
        emits AxisAsyncFifo.step AxisAsyncFifo.pushed s.fifo
          (emits step (fun s t => [fifoTick s t]) s ts) :=
      emits_feeds (g := State.fifo) (fun _ _ => rfl) (fun _ _ => by simp) s ts
    rw [← emits_packetizer, ← emits_map, ← hfifo]
    exact emits_congr (fun _ _ _ => rfl) (fun s t ht => pushed_eq (hts t ht) s)
  have hid : unpackWord ∘ packWord = id := funext unpackWord_packWord
  -- The words popped are a prefix of those pushed, and unpacking undoes packing.
  unfold delivered
  rw [emits_map, hpopped, hempty, hc.outs_eq, ← hempty, hpushed, List.map_take, List.map_map, hid,
    List.map_id]
  exact List.take_prefix _ _

/-- Between two words with `tlast` the DMA gets one whole packet; packet `k` of the stream is the one
that the `k`-th start latched, and carries the next IQ words. -/
theorem groups_delivered {mem : BitVec 10 → BitVec 37} (hempty : s.fifo = AxisAsyncFifo.resetState mem)
    {t0 : BitVec 64} (hbegin : IqPacketizer.Begins SdrPlCore.packetizerParams s.core.iq t0)
    (hts : ∀ t ∈ ts, Streaming d t) :
    ∃ packets current,
      (∀ k ∈ packets, k.Full SdrPlCore.packetizerParams) ∧
        Numbered SdrPlCore.packetizerParams t0 (d.setWidth 32) (emits step started s ts)
          (emits step taken s ts) (runFrom step s ts).core.iq packets current ∧
        groups [] (emits step delivered s ts) <+:
          packets.map (Packet.words SdrPlCore.packetizerParams) := by
  have hfed := fed_streaming (s := s) hts
  rcases IqPacketizer.framed_numbered_run (by decide) hbegin _ hfed with
    ⟨packets, current, hf, hn⟩
  refine ⟨packets, current, hf.full, ?_, ?_⟩
  · rw [iq_run]
    unfold started taken
    rw [emits_packetizer, emits_packetizer]
    exact hn
  · -- What is delivered is a prefix of what is accepted, and that of what is put out.
    have hvalid := (IqPacketizer.begins_spec hbegin (d.setWidth 32)).1
    have haccepted := IqPacketizer.accepted_prefix_put SdrPlCore.packetizerParams hvalid
      (along_of_forall (fun _ i hi => (hfed i hi).1.1))
    rcases (delivered_isPrefix hempty hts).trans haccepted with ⟨rest, hrest⟩
    have hgroups := IqPacketizer.groups_prefix [] (emits step delivered s ts) rest
    rw [hrest, hf.out_eq, IqPacketizer.groups_flatMap_words _ _ IqPacketizer.last_partialWords]
      at hgroups
    exact hgroups

end Parts

end IqLink
end Fpga
end Sdr
