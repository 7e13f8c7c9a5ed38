import Sdr.Fpga.DdcChain
import Sdr.Fpga.IqFraming
import Sdr.Fpga.SdrPlCore

/-!
# PacketProgress — packets keep coming

With a sample at every edge and a sink that is always ready, the down-converter has a word for the
packetizer once in every decimation period, and after a header the packetizer takes every word that it
is offered.  So a packet is closed within `closeBound` edges, whatever the samples are, and again within
as many after that one (`closed_often`).

The words that are taken and those on their way through the registers are counted together (`fill`):
that number goes up with every edge, for the filter counts towards its next word.
-/

namespace Sdr
namespace Fpga

/-! ## One block at a time -/

namespace IqPacketizer

variable {p : Params} {s : State} {i : Inputs}

theorem step_of_ready (hi : Streaming i) (hready : i.mAxisTready = true) :
    step p s i = advance p (drain s i) i := by
  rw [step_streaming hi, outReady, hready, Bool.or_true, if_pos rfl]

/-- The last word of a packet closes it. -/
theorem step_last (hi : Streaming i) (hready : i.mAxisTready = true) (hs : s.state = .payload)
    (hvalid : i.sAxisTvalid = true) (hcount : s.payloadCount = p.frameSamples - 1) :
    (step p s i).mAxisTvalid = true ∧ (step p s i).mAxisTlast = true ∧
      (step p s i).state = .idle ∧ (step p s i).payloadCount = 0 ∧
        (step p s i).headerIndex = s.headerIndex := by
  obtain ⟨hstate, hindex, hpayload⟩ := drain_fields s i
  simp [step_of_ready hi hready, advance, putPayload, hstate, hindex, hpayload, hs, hvalid, hcount]

/-- Any other word is counted. -/
theorem step_more (hi : Streaming i) (hready : i.mAxisTready = true) (hs : s.state = .payload)
    (hmore : i.sAxisTvalid = true → s.payloadCount ≠ p.frameSamples - 1) :
    (step p s i).state = .payload ∧ (step p s i).headerIndex = s.headerIndex ∧
      (step p s i).payloadCount =
        if i.sAxisTvalid then s.payloadCount + 1 else s.payloadCount := by
  obtain ⟨hstate, hindex, hpayload⟩ := drain_fields s i
  cases hvalid : i.sAxisTvalid with
  | false =>
      simp [step_of_ready hi hready, advance, hstate, hindex, hpayload, hs, hvalid]
  | true =>
      have hnot : ¬s.payloadCount = p.frameSamples - 1 := hmore hvalid
      rw [step_of_ready hi hready]
      simp only [advance, putPayload, hstate, hindex, hpayload, hs, hvalid, if_true, if_neg hnot,
        and_self]

theorem step_header (hi : Streaming i) (hready : i.mAxisTready = true) (hs : s.state = .header) :
    (step p s i).payloadCount = s.payloadCount ∧
      (step p s i).headerIndex = (if s.headerIndex = 15 then 0 else s.headerIndex + 1) ∧
        (step p s i).state = if s.headerIndex = 15 then .payload else .header := by
  obtain ⟨hstate, hindex, hpayload⟩ := drain_fields s i
  simp [step_of_ready hi hready, advance, putHeader, hstate, hindex, hpayload, hs]

theorem step_idle (hi : Streaming i) (hready : i.mAxisTready = true) (hs : s.state = .idle) :
    (step p s i).payloadCount = 0 ∧ (step p s i).headerIndex = 0 ∧
      (step p s i).state = .header := by
  obtain ⟨hstate, -, -⟩ := drain_fields s i
  simp [step_of_ready hi hready, advance, startPacket, hstate, hs]

theorem step_other (hi : Streaming i) (hready : i.mAxisTready = true) (hs : s.state = .other) :
    (step p s i).payloadCount = s.payloadCount ∧ (step p s i).headerIndex = s.headerIndex ∧
      (step p s i).state = .idle := by
  obtain ⟨hstate, hindex, hpayload⟩ := drain_fields s i
  simp [step_of_ready hi hready, advance, hstate, hindex, hpayload, hs]

end IqPacketizer

namespace DdcCore

open CicDecimator (period)

/-- Every stage in front of the filters is valid, and the filters count within their period. -/
structure Filled (rate : BitVec 16) (s : State) : Prop where
  length : s.nco.cordic.pipe.length = 17
  stages : ∀ g ∈ s.nco.cordic.pipe, g.valid = true
  cordic : s.nco.cordic.validOut = true
  mixer : s.mixer.validOut = true
  together : Together s
  inRange : s.cicI.decimCount.toNat < period rate

instance (rate : BitVec 16) (s : State) : Decidable (Filled rate s) :=
  decidable_of_iff
    (s.nco.cordic.pipe.length = 17 ∧ (∀ g ∈ s.nco.cordic.pipe, g.valid = true) ∧
      s.nco.cordic.validOut = true ∧ s.mixer.validOut = true ∧
        (s.cicI.decimCount = s.cicQ.decimCount ∧ s.cicI.validOut = s.cicQ.validOut) ∧
          s.cicI.decimCount.toNat < period rate)
    ⟨fun ⟨hlength, hstages, hcordic, hmixer, ⟨hcount, hvalid⟩, hrange⟩ =>
        ⟨hlength, hstages, hcordic, hmixer, ⟨hcount, hvalid⟩, hrange⟩,
      fun h => ⟨h.length, h.stages, h.cordic, h.mixer, ⟨h.together.decimCount, h.together.validOut⟩,
        h.inRange⟩⟩

/-- The words between the filters and the packetizer. -/
def underway (s : State) : Nat :=
  s.cicI.validOut.toNat + s.gainSat.validOut.toNat + s.mAxisTvalid.toNat

variable {rate : BitVec 16} {s : State} {i : Inputs}

theorem gainSat_step (hrst : i.rst = false) (h : Together s) :
    (step s i).gainSat.validOut = s.cicI.validOut := by
  rw [congrArg State.gainSat (step_frame s i)]
  cases hv : s.cicQ.validOut <;> simp [pipeline, IqGainSat.step, hrst, h.validOut, hv]

theorem mAxisTvalid_step_of_ready (hrst : i.rst = false) (hready : i.mAxisTready = true) :
    (step s i).mAxisTvalid = s.gainSat.validOut := by
  have hwaiting := congrArg List.length (waiting_step (s := s) hrst hready)
  cases hv : (step s i).mAxisTvalid <;> cases hs : s.gainSat.validOut <;>
    simp_all [waiting, satPair]

/-- The filter counts, or puts out a word and starts over. -/
theorem count_step (h : Filled rate s) (hrst : i.rst = false) (hrate : i.decimRate = rate) :
    (step s i).cicI.decimCount.toNat < period rate ∧
      period rate * (step s i).cicI.validOut.toNat + (step s i).cicI.decimCount.toNat =
        s.cicI.decimCount.toNat + 1 := by
  have hcic := cicI_step (s := s) hrst
  rw [hrate, h.mixer] at hcic
  have hvalid := CicDecimator.clock_validOut (s := s.cicI) (i := ⟨s.mixer.iOut, true, rate⟩) rfl
  rw [← hcic] at hvalid
  have hrange := h.inRange
  have hbound := CicDecimator.period_le rate
  by_cases hlast : s.cicI.decimCount.toNat + 1 = period rate
  · -- The filter fires, and starts over.
    have hfire : CicDecimator.decimFire s.cicI true rate = true :=
      (CicDecimator.decimFire_iff rate).2 hlast
    have hzero : (step s i).cicI.decimCount = 0 := by
      rw [hcic]
      simp [CicDecimator.clock, CicDecimator.step, hfire]
    rw [hvalid.2 hlast, hzero, hlast]
    exact ⟨by simp; omega, by simp⟩
  · -- It only counts.
    have hmore := CicDecimator.clock_decimCount (s := s.cicI) (i := ⟨s.mixer.iOut, true, rate⟩) rfl
      hlast
    rw [← hcic] at hmore
    have hsilent : (step s i).cicI.validOut = false := by
      rw [← Bool.not_eq_true, hvalid]
      exact hlast
    have hcount : (step s i).cicI.decimCount.toNat = s.cicI.decimCount.toNat + 1 := by
      rw [hmore]
      bv_omega
    rw [hsilent, hcount]
    exact ⟨by omega, by simp⟩

/-- A valid sample keeps every stage valid. -/
theorem Filled.step (h : Filled rate s) (hrst : i.rst = false) (hrate : i.decimRate = rate)
    (haccepted : accepted i = true) : Filled rate (DdcCore.step s i) := by
  have hnco : (DdcCore.step s i).nco.cordic = CordicSincos.step s.nco.cordic false true
      s.nco.phaseAcc := by
    rw [congrArg State.nco (step_frame s i)]
    simp only [pipeline, Nco.step, hrst]
    rw [show Nco.advance i.enable i.sampleValid = true from haccepted]
  have hlast : (CordicSincos.lastStage s.nco.cordic).valid = true := by
    refine h.stages _ ?_
    have hlt : 16 < s.nco.cordic.pipe.length := by
      rw [h.length]
      decide
    rw [CordicSincos.lastStage, List.getD_eq_getElem?_getD, List.getElem?_eq_getElem hlt]
    exact List.getElem_mem hlt
  refine ⟨?_, ?_, ?_, ?_, h.together.step hrst, (count_step h hrst hrate).1⟩
  · rw [hnco]
    simp [CordicSincos.step, h.length]
  · intro g hg
    rw [hnco] at hg
    rcases List.mem_cons.1 hg with rfl | hg
    · rfl
    · -- Every other stage has the valid bit of the stage before it.
      obtain ⟨j, hj⟩ := List.mem_iff_getElem?.1 hg
      obtain ⟨k, g', -, hg', rfl⟩ := List.getElem?_zipWith_eq_some.1 hj
      rw [CordicSincos.rotate_valid]
      exact h.stages g' (List.mem_of_getElem? hg')
  · rw [hnco]
    exact hlast
  · rw [congrArg State.mixer (step_frame s i)]
    simp [pipeline, MixerRealToIq.step, hrst, h.cordic]

/-- An edge at which the packetizer is ready moves the words on. -/
theorem underway_step (h : Filled rate s) (hrst : i.rst = false) (hrate : i.decimRate = rate)
    (hready : i.mAxisTready = true) :
    period rate * (s.mAxisTvalid.toNat + underway (step s i)) +
        (step s i).cicI.decimCount.toNat =
      period rate * underway s + s.cicI.decimCount.toNat + 1 := by
  have hcount := (count_step h hrst hrate).2
  rw [underway, underway, gainSat_step hrst h.together, mAxisTvalid_step_of_ready hrst hready]
  linarith

end DdcCore

/-! ## The core -/

namespace SdrPlCore

open Lib
open DdcCore (Filled underway)
open CicDecimator (period)

/-- A packet is whole after the edge. -/
def closed (s : State) (i : Inputs) : List Unit :=
  if (step s i).iq.mAxisTvalid && (step s i).iq.mAxisTlast then [()] else []

/-- An edge of a stream at this rate, with a sample and a sink that is ready. -/
structure Flowing (rate : BitVec 16) (i : Inputs) : Prop where
  streaming : Streaming i
  decimRate : i.ddc0DecimRate = rate
  sample : adcActiveValid i = true
  sink : i.mAxisIqTready = true

/-- The pipeline is filled, and the packetizer's counters are in their range. -/
structure Fed (rate : BitVec 16) (s : State) : Prop where
  sample : s.dc.sampleValidOut = true
  ddc : Filled rate s.ddc
  headerIndex : s.iq.headerIndex.toNat < 16
  payloadCount : s.iq.payloadCount.toNat < 256

instance (rate : BitVec 16) (s : State) : Decidable (Fed rate s) :=
  decidable_of_iff
    (s.dc.sampleValidOut = true ∧ Filled rate s.ddc ∧ s.iq.headerIndex.toNat < 16 ∧
      s.iq.payloadCount.toNat < 256)
    ⟨fun ⟨hsample, hddc, hindex, hcount⟩ => ⟨hsample, hddc, hindex, hcount⟩,
      fun h => ⟨h.sample, h.ddc, h.headerIndex, h.payloadCount⟩⟩

/-- How far the packet has come, counted in edges. -/
def fill (rate : BitVec 16) (s : State) : Nat :=
  period rate * (s.iq.payloadCount.toNat + underway s.ddc) + s.ddc.cicI.decimCount.toNat

/-- Within as many edges a packet is closed. -/
def toClose (rate : BitVec 16) (s : State) : Nat :=
  match s.iq.state with
  -- 256 words, and three in the registers behind them, each of one period.
  | .payload => 259 * period rate - fill rate s
  -- Until the header is out nothing is taken, and the registers may stand still.
  | .header => 259 * period rate + (16 - s.iq.headerIndex.toNat)
  | .idle => 259 * period rate + 17
  | .other => 259 * period rate + 18

def closeBound (rate : BitVec 16) : Nat :=
  259 * period rate + 18

section Fed

variable {rate : BitVec 16} {s : State} {i : Inputs}

theorem underway_le (d : DdcCore.State) : underway d ≤ 3 := by
  have hbit : ∀ b : Bool, b.toNat ≤ 1 := Bool.toNat_le
  have h1 := hbit d.cicI.validOut
  have h2 := hbit d.gainSat.validOut
  have h3 := hbit d.mAxisTvalid
  rw [underway]
  omega

theorem Fed.fill_lt (h : Fed rate s) : fill rate s < 259 * period rate := by
  have hcount := h.payloadCount
  have hunder := underway_le s.ddc
  have hrange := h.ddc.inRange
  have hwords : period rate * (s.iq.payloadCount.toNat + underway s.ddc) ≤ period rate * 258 :=
    Nat.mul_le_mul_left _ (by omega)
  rw [fill]
  omega

theorem toClose_le (rate : BitVec 16) (s : State) : toClose rate s ≤ closeBound rate := by
  unfold toClose closeBound
  split
  all_goals omega

theorem Fed.toClose_pos (h : Fed rate s) : 0 < toClose rate s := by
  have hfill := h.fill_lt
  have hindex := h.headerIndex
  unfold toClose
  split
  all_goals omega

theorem iq_streaming (h : Flowing rate i) (s : State) :
    IqPacketizer.Streaming (packetizerInputs s i) :=
  h.streaming

theorem dc_step (h : Flowing rate i) (s : State) : (step s i).dc.sampleValidOut = true := by
  simp [step, DcOffsetRemove.step, h.streaming.1, h.sample]

/-- Every edge keeps the pipeline filled, whatever the packetizer does. -/
theorem Fed.ddc_step (h : Fed rate s) (hi : Flowing rate i) : Filled rate (step s i).ddc := by
  refine h.ddc.step hi.streaming.1 hi.decimRate ?_
  show (enable i && s.dc.sampleValidOut) = true
  rw [hi.streaming.2.1, h.sample, Bool.and_self]

/-- A word of the payload is taken as soon as it is there, and counted by `fill` before and after. -/
theorem fill_step (h : Fed rate s) (hi : Flowing rate i) (hs : s.iq.state = .payload)
    (hcount : (step s i).iq.payloadCount.toNat =
      s.iq.payloadCount.toNat + s.ddc.mAxisTvalid.toNat) :
    fill rate (step s i) = fill rate s + 1 := by
  have hready : (ddcInputs s i).mAxisTready = true := by
    simp [ddcInputs, IqPacketizer.sAxisTready, IqPacketizer.outReady, packetizerInputs, hs, hi.sink]
  have hunder := DdcCore.underway_step h.ddc hi.streaming.1 hi.decimRate hready
  have hddc : (step s i).ddc = DdcCore.step s.ddc (ddcInputs s i) := rfl
  rw [fill, fill, hcount, hddc]
  linarith

/-- An edge of the payload that does not complete it. -/
theorem payload_step (h : Fed rate s) (hi : Flowing rate i) (hs : s.iq.state = .payload)
    (hmore : s.ddc.mAxisTvalid = true → s.iq.payloadCount ≠ 255) :
    (step s i).iq.state = .payload ∧ (step s i).iq.headerIndex = s.iq.headerIndex ∧
      (step s i).iq.payloadCount.toNat = s.iq.payloadCount.toNat + s.ddc.mAxisTvalid.toNat ∧
        (step s i).iq.payloadCount.toNat < 256 := by
  obtain ⟨hnext, hsame, hcount⟩ :=
    IqPacketizer.step_more (p := packetizerParams) (iq_streaming hi s) hi.sink hs hmore
  have hpayload := h.payloadCount
  have hoffer : (packetizerInputs s i).sAxisTvalid = s.ddc.mAxisTvalid := rfl
  have hiq : (step s i).iq = IqPacketizer.step packetizerParams s.iq (packetizerInputs s i) := rfl
  rw [hoffer] at hcount
  rw [hiq, hcount]
  refine ⟨hnext, hsame, ?_⟩
  cases hvalid : s.ddc.mAxisTvalid with
  | false => exact ⟨rfl, hpayload⟩
  | true =>
      -- The count does not wrap: the packet is not whole.
      have hne : s.iq.payloadCount.toNat ≠ 255 := fun heq =>
        hmore hvalid (BitVec.eq_of_toNat_eq heq)
      have hsucc : (s.iq.payloadCount + 1).toNat = s.iq.payloadCount.toNat + 1 := by bv_omega
      rw [if_pos rfl, hsucc]
      exact ⟨rfl, by omega⟩

/-- An edge closes a packet, or brings its end nearer. -/
theorem Fed.step (h : Fed rate s) (hi : Flowing rate i) :
    Fed rate (SdrPlCore.step s i) ∧
      toClose rate (SdrPlCore.step s i) + 1 ≤
        toClose rate s + closeBound rate * (closed s i).length := by
  have hstreaming := iq_streaming hi s
  have hsink : (packetizerInputs s i).mAxisTready = true := hi.sink
  have hiq : (SdrPlCore.step s i).iq =
      IqPacketizer.step packetizerParams s.iq (packetizerInputs s i) := rfl
  have hddc := h.ddc_step hi
  have hdc := dc_step hi s
  have hindex := h.headerIndex
  have hpayload := h.payloadCount
  cases hs : s.iq.state with
  | idle =>
      obtain ⟨hzero, hfirst, hnext⟩ :=
        IqPacketizer.step_idle (p := packetizerParams) hstreaming hsink hs
      rw [← hiq] at hzero hfirst hnext
      have hfresh : (SdrPlCore.step s i).iq.headerIndex.toNat = 0 := by
        rw [hfirst]
        rfl
      refine ⟨⟨hdc, hddc, by omega, by simp [hzero]⟩, ?_⟩
      simp only [toClose, hs, hnext, hfresh]
      omega
  | header =>
      obtain ⟨hsame, hheader, hnext⟩ :=
        IqPacketizer.step_header (p := packetizerParams) hstreaming hsink hs
      rw [← hiq] at hsame hheader hnext
      by_cases hlast : s.iq.headerIndex = 15
      · -- From here on `fill` counts.
        rw [if_pos hlast] at hheader hnext
        have hfifteen : s.iq.headerIndex.toNat = 15 := by
          rw [hlast]
          rfl
        refine ⟨⟨hdc, hddc, by simp [hheader], by rw [hsame]; exact hpayload⟩, ?_⟩
        simp only [toClose, hs, hnext, hfifteen]
        omega
      · rw [if_neg hlast] at hheader hnext
        have hne : s.iq.headerIndex.toNat ≠ 15 := fun heq => hlast (BitVec.eq_of_toNat_eq heq)
        have hsucc : (s.iq.headerIndex + 1).toNat = s.iq.headerIndex.toNat + 1 := by bv_omega
        refine ⟨⟨hdc, hddc, by rw [hheader, hsucc]; omega, by rw [hsame]; exact hpayload⟩, ?_⟩
        simp only [toClose, hs, hnext, hheader, hsucc]
        omega
  | payload =>
      by_cases hlast : s.ddc.mAxisTvalid = true ∧ s.iq.payloadCount = 255
      · -- The packet is whole.
        obtain ⟨hvalid, htlast, hnext, hzero, hsame⟩ :=
          IqPacketizer.step_last (p := packetizerParams) hstreaming hsink hs hlast.1 hlast.2
        rw [← hiq] at hvalid htlast hnext hzero hsame
        refine ⟨⟨hdc, hddc, by rw [hsame]; exact hindex, by simp [hzero]⟩, ?_⟩
        have hclosed : (closed s i).length = 1 := by simp [closed, hvalid, htlast]
        have hle := toClose_le rate (SdrPlCore.step s i)
        have hpos := h.toClose_pos
        rw [hclosed]
        omega
      · obtain ⟨hnext, hsame, hcount, hfew⟩ :=
          payload_step h hi hs fun hvalid hfull => hlast ⟨hvalid, hfull⟩
        refine ⟨⟨hdc, hddc, by rw [hsame]; exact hindex, hfew⟩, ?_⟩
        have hfill := fill_step h hi hs hcount
        have hlt := h.fill_lt
        simp only [toClose, hs, hnext, hfill]
        omega
  | other =>
      obtain ⟨hsame, hheader, hnext⟩ :=
        IqPacketizer.step_other (p := packetizerParams) hstreaming hsink hs
      rw [← hiq] at hsame hheader hnext
      refine ⟨⟨hdc, hddc, by rw [hheader]; exact hindex, by rw [hsame]; exact hpayload⟩, ?_⟩
      simp only [toClose, hs, hnext]
      omega

theorem Fed.run (h : Fed rate s) (is : List Inputs) (his : ∀ i ∈ is, Flowing rate i) :
    Fed rate (runFrom SdrPlCore.step s is) ∧
      toClose rate (runFrom SdrPlCore.step s is) + is.length ≤
        toClose rate s + closeBound rate * (emits SdrPlCore.step closed s is).length := by
  induction is generalizing s with
  | nil =>
      exact ⟨h, le_refl _⟩
  | cons i is ih =>
      obtain ⟨hfed, hstep⟩ := h.step (his i (by simp))
      obtain ⟨hfed', hrun⟩ := ih hfed (fun j hj => his j (by simp [hj]))
      refine ⟨hfed', ?_⟩
      rw [runFrom_cons, emits_cons, List.length_append, List.length_cons, Nat.mul_add]
      omega

/-- In every `closeBound` edges a packet is closed. -/
theorem closed_often (h : Fed rate s) (is : List Inputs) (his : ∀ i ∈ is, Flowing rate i) :
    is.length / closeBound rate ≤ (emits SdrPlCore.step closed s is).length := by
  obtain ⟨hfed, hrun⟩ := h.run is his
  have hpos := hfed.toClose_pos
  have hle := toClose_le rate s
  have hbound : is.length < closeBound rate * ((emits SdrPlCore.step closed s is).length + 1) := by
    rw [Nat.mul_succ]
    omega
  exact Nat.lt_succ_iff.1 (Nat.div_lt_of_lt_mul hbound)

end Fed

end SdrPlCore
end Fpga
end Sdr
