import Sdr.Bridge.Programming
import Sdr.Fpga.AxiTransactions
import Sdr.Fpga.SdrTop

/-!
# ControlPath — from a control line to the signal path

The handler of `ps/baremetal` writes registers; an AXI master carries the writes to
`axi_lite_slave`; the register file packs its outputs, `config_sync` takes them to the ADC clock domain,
and `sdr_top` unpacks them for `sdr_pl_core`.  Each stage may be arbitrarily far behind the one before
it, and skip what was overwritten meanwhile, but none reorders or mixes: whenever the signal path is
told to stream, it is told the whole of one request that the handler accepted
(`streams_requested_config`).
-/

namespace Sdr
namespace Bridge

open Lib
open Fpga Fpga.CsrRegfile

/-! ## The writes of the handler -/

/-- The register writes of all lines, in order. -/
def hwWrites (es : List LineEvent) : List Write :=
  emits Board.step (fun b e => Bridge.writesOf (b.outcome e).ops) Board.init es

theorem hwWrites_snoc (es : List LineEvent) (e : LineEvent) :
    hwWrites (es ++ [e]) = hwWrites es ++ Bridge.writesOf ((Board.run es).outcome e).ops :=
  emits_snoc _ _ _ _ _

theorem regs_run (es : List LineEvent) :
    (Board.run es).regs = Regs.reset.applyAll (hwWrites es) := by
  induction es using List.reverseRecOn with
  | nil =>
      rfl
  | append_singleton es e ih =>
      rw [run_snoc, hwWrites_snoc, Regs.applyAll_append, ← ih]
      rfl

/-- Wherever the writes are cut off, the registers stream only what one accepted line asked for. -/
theorem streaming_prefix (es : List LineEvent) (k : Nat)
    (hs : Streaming (Regs.reset.applyAll ((hwWrites es).take k))) :
    ∃ rx, Accepted es rx ∧ ValidRx rx ∧
      Regs.reset.applyAll ((hwWrites es).take k) = programmed rx := by
  induction es using List.reverseRecOn generalizing k with
  | nil =>
      rw [hwWrites, emits_nil, List.take_nil] at hs
      exact absurd hs (by decide)
  | append_singleton es e ih =>
      rw [hwWrites_snoc, List.take_append] at hs ⊢
      rcases Nat.lt_or_ge k (hwWrites es).length with hbefore | hafter
      · rw [Nat.sub_eq_zero_of_le (Nat.le_of_lt hbefore), List.take_zero, List.append_nil] at hs ⊢
        obtain ⟨rx, haccepted, hvalid, hprog⟩ := ih k hs
        exact ⟨rx, haccepted.snoc e, hvalid, hprog⟩
      · -- The cut is in the last line.
        obtain ⟨j, hj⟩ : ∃ j, j = k - (hwWrites es).length := ⟨_, rfl⟩
        have hregs : Regs.reset.applyAll ((hwWrites es).take k ++
            (Bridge.writesOf ((Board.run es).outcome e).ops).take j) =
              (Board.run es).regsAfter e j := by
          rw [List.take_of_length_le hafter, Regs.applyAll_append, ← regs_run]
          rfl
        rw [← hj, hregs] at hs ⊢
        rcases regsAfter_cases (Board.run es) e j with hsame | hoff | ⟨rx, hrequest, hprog⟩
        · rw [hsame, regs_run] at hs ⊢
          rw [← List.take_length (l := hwWrites es)] at hs ⊢
          obtain ⟨rx, haccepted, hvalid, hprog⟩ := ih _ hs
          exact ⟨rx, haccepted.snoc e, hvalid, hprog⟩
        · exact absurd hs (not_streaming hoff)
        · exact ⟨rx, ⟨es, e, List.prefix_rfl, hrequest⟩, acceptedRx_valid hrequest, hprog⟩

/-! ## Configuration writes -/

theorem applyAll_filter (r : Regs) (ws : List Write) :
    r.applyAll (ws.filter Write.isConfig) = r.applyAll ws := by
  induction ws generalizing r with
  | nil =>
      rfl
  | cons w ws ih =>
      cases hw : w.isConfig with
      | false =>
          rw [List.filter_cons_of_neg (by simp [hw]), ih]
          change _ = (r.apply w).applyAll ws
          rw [Regs.apply_of_not_isConfig r hw]
      | true =>
          rw [List.filter_cons_of_pos hw]
          exact ih (r.apply w)

theorem take_filter {α : Type} (p : α → Bool) (l : List α) (k : Nat) :
    ∃ j, (l.filter p).take k = (l.take j).filter p := by
  induction l generalizing k with
  | nil =>
      exact ⟨0, by simp⟩
  | cons a l ih =>
      cases ha : p a with
      | false =>
          obtain ⟨j, hj⟩ := ih k
          exact ⟨j + 1, by simpa [ha] using hj⟩
      | true =>
          cases k with
          | zero =>
              exact ⟨0, by simp⟩
          | succ k =>
              obtain ⟨j, hj⟩ := ih k
              exact ⟨j + 1, by simpa [ha] using hj⟩

/-! ## The AXI port -/

section Axi

open Fpga.AxiLiteSlave

/-- The master has sent a part of these writes, on both channels in order; how the channels interleave,
and how long each beat waits, is open. -/
structure Issues (ws : List Write) (ps : List Ports) : Prop where
  aw : emits clock acceptedAw resetState ps <+: ws.map Write.addr
  w : emits clock acceptedW resetState ps <+: ws.map payload

theorem Issues.applied_prefix {ws : List Write} {ps : List Ports} (h : Issues ws ps) :
    emits clock applied resetState ps <+: ws := by
  have haddr : (emits clock applied resetState ps).map Write.addr <+: ws.map Write.addr :=
    (List.prefix_append _ _).trans ((emits_acceptedAw ps).symm ▸ h.aw)
  have hdata : (emits clock applied resetState ps).map payload <+: ws.map payload :=
    (List.prefix_append _ _).trans ((emits_acceptedW ps).symm ▸ h.w)
  have hself : ∀ l : List Write, List.zipWith AxiLiteSlave.writeOf (l.map Write.addr) (l.map payload) = l := by
    intro l
    simpa using zipWith_writeOf l [] []
  -- A write is its address and its payload.
  rw [List.prefix_iff_eq_take, List.length_map, ← List.map_take] at haddr hdata
  rw [List.prefix_iff_eq_take, ← hself (emits clock applied resetState ps), haddr, hdata, hself,
    List.length_take]
  simp

end Axi

/-! ## The crossing -/

section Crossing

open Fpga.ConfigCrossing

/-- The cycles of the AXI clock. -/
def axiPorts : Edge → Option AxiLiteSlave.Ports
  | .axi _ ports => some ports
  | .adc _ => none

variable {es : List Edge}

theorem along_noReset (h : NoReset es) :
    Along ConfigCrossing.step (fun _ e => e.rst = false) ConfigCrossing.resetState es :=
  along_of_forall (fun _ => h)

theorem writesOf_eq_filter (h : NoReset es) :
    ConfigCrossing.writesOf es =
      (emits AxiLiteSlave.clock AxiLiteSlave.applied AxiLiteSlave.resetState
        (es.filterMap axiPorts)).filter Write.isConfig := by
  have hview : emits ConfigCrossing.step configWrites ConfigCrossing.resetState es =
      emits AxiLiteSlave.clock (fun s _ => AxiLiteSlave.configWrite s) AxiLiteSlave.resetState
        (es.filterMap axiPorts) := by
    refine emits_view (g := ConfigCrossing.State.axi) (I := fun _ => True)
      (fun _ _ _ _ => trivial) ?_ ?_ trivial (along_noReset h)
    · intro s e _ he
      cases e with
      | axi rst ports =>
          cases (he : rst = false)
          rfl
      | adc rst =>
          rfl
    · intro s e _ he
      cases e with
      | axi rst ports =>
          cases (he : rst = false)
          rfl
      | adc rst =>
          rfl
  rw [ConfigCrossing.writesOf, hview, filter_emits]
  refine emits_congr (fun _ _ _ => rfl) (fun s p _ => ?_)
  cases hfire : AxiLiteSlave.wrFire s <;> cases hconfig : (AxiLiteSlave.held s).isConfig <;>
    simp [AxiLiteSlave.configWrite, AxiLiteSlave.applied, hfire, hconfig]

/-- The ADC side holds the last value loaded. -/
theorem dstData_eq (h : NoReset es) : (run es).sync.dstData = (loadsOf es).getLastD 0 := by
  induction es using List.reverseRecOn with
  | nil =>
      rfl
  | append_singleton es e ih =>
      obtain ⟨hbefore, hrst⟩ := h.of_snoc
      rw [ConfigCrossing.run_snoc, loadsOf_snoc]
      cases e with
      | axi rst ports =>
          have hsame : (ConfigCrossing.step (run es) (.axi rst ports)).sync.dstData =
              (run es).sync.dstData := by
            simp only [ConfigCrossing.step, ConfigSync.srcEdge]
            split_ifs <;> rfl
          rw [hsame, ih hbefore]
          simp [loads]
      | adc rst =>
          cases (hrst : rst = false)
          cases hup : ConfigSync.dstUpdate (run es).sync with
          | false =>
              simpa [ConfigCrossing.step, ConfigSync.dstEdge, loads, hup] using ih hbefore
          | true =>
              simp [ConfigCrossing.step, ConfigSync.dstEdge, loads, hup]

/-- What the ADC side holds has been the configuration at some time, or nothing has arrived yet. -/
theorem dstData_cases (hreset : NoReset es) (hpace : Paced es) {ws : List Write}
    (hissues : Issues ws (es.filterMap axiPorts)) :
    (run es).sync.dstData = 0 ∨
      ∃ k, (run es).sync.dstData = cfgCtrl (Regs.reset.applyAll (ws.take k)) := by
  obtain ⟨-, -, ks, last, hloaded⟩ := crossing_of_paced es hreset hpace
  rw [dstData_eq hreset, hloaded.values]
  rcases List.eq_nil_or_concat ks with rfl | ⟨ks, k, rfl⟩
  · exact Or.inl rfl
  · right
    rw [List.concat_eq_append, List.map_append, List.map_singleton, List.getLastD_concat,
      configAfter, writesOf_eq_filter hreset]
    -- Leaving out the writes that are not of the configuration changes nothing.
    obtain ⟨j, hj⟩ := take_filter Write.isConfig
      (emits AxiLiteSlave.clock AxiLiteSlave.applied AxiLiteSlave.resetState
        (es.filterMap axiPorts)) k
    have hpre := (List.take_prefix j _).trans hissues.applied_prefix
    rw [hj, applyAll_filter, List.prefix_iff_eq_take.1 hpre]
    exact ⟨_, rfl⟩

end Crossing

/-! ## The signal path -/

/-- The configuration inputs of the signal path are those of a request. -/
structure Requested (i : SdrPlCore.Inputs) (rx : RxConfig) : Prop where
  adcChannel : i.ddc0AdcChannel = decide (rx.adcChannel = 1)
  frequencyHz : i.ddc0FrequencyHz = rx.frequencyHz
  freqWord : (i.ddc0FreqWord.toNat : ℤ) = round ((rx.frequencyHz.toNat * 2 ^ 32 : ℚ) / 250000000)
  iqRate : i.ddc0IqSampleRateHz = rx.iqSampleRateHz
  decim_mul_iqRate : i.ddc0DecimRate.toNat * rx.iqSampleRateHz.toNat = 250000000
  bandwidth : i.ddc0BandwidthHz = rx.bandwidthHz
  gainShift : i.ddc0GainShift = 30
  gainDb : i.ddc0GainDbQ8 = 0
  min_le : 500000 ≤ rx.frequencyHz.toNat
  le_max : rx.frequencyHz.toNat ≤ 108000000

section Unpack

open Fpga.SdrTop

variable (r : Regs)

/-- The fields arrive where they were packed. -/
theorem unpack_cfgCtrl :
    ddc0AdcChannelAdc (ConfigCrossing.cfgCtrl r) = r.ddc0AdcChannel ∧
      ddc0FreqWordAdc (ConfigCrossing.cfgCtrl r) = r.ddc0FreqWord ∧
      ddc0DecimRateAdc (ConfigCrossing.cfgCtrl r) = r.ddc0DecimRate ∧
      ddc0GainShiftAdc (ConfigCrossing.cfgCtrl r) = r.ddc0GainShift ∧
      ddc0FrequencyHzAdc (ConfigCrossing.cfgCtrl r) = r.ddc0FrequencyHz ∧
      ddc0IqSampleRateHzAdc (ConfigCrossing.cfgCtrl r) = r.ddc0IqRate ∧
      ddc0BandwidthHzAdc (ConfigCrossing.cfgCtrl r) = r.ddc0Bandwidth ∧
      ddc0GainDbQ8Adc (ConfigCrossing.cfgCtrl r) = r.ddc0GainDbQ8 := by
  constructor
  · -- The three bits below it are the other flags.
    rw [ddc0AdcChannelAdc, ConfigCrossing.cfgCtrl, BitVec.getLsbD_append, if_neg (by decide),
      BitVec.getLsbD_append, if_neg (by decide), BitVec.getLsbD_append, if_neg (by decide),
      BitVec.getLsbD_append]
    simp
  · -- Past the fields below it, each field is the low end.
    simp (disch := decide) only [ddc0FreqWordAdc, ddc0DecimRateAdc, ddc0GainShiftAdc,
      ddc0FrequencyHzAdc, ddc0IqSampleRateHzAdc, ddc0BandwidthHzAdc, ddc0GainDbQ8Adc,
      ConfigCrossing.cfgCtrl, BitVec.extractLsb'_append_eq_of_le, Nat.reduceSub,
      BitVec.extractLsb'_append_eq_right, BitVec.extractLsb'_eq_self, and_self]

end Unpack

section Top

open Fpga.ConfigCrossing

/-- The part of an edge that the crossing sees. -/
def ctrlEdge : SdrTop.Edge → Edge
  | .axi rst ports => .axi rst ports
  | .adc rst _ => .adc rst

theorem ctrl_run (es : List SdrTop.Edge) :
    (SdrTop.run es).ctrl = run (es.map ctrlEdge) := by
  induction es using List.reverseRecOn with
  | nil =>
      rfl
  | append_singleton es e ih =>
      rw [List.map_append, List.map_singleton, ConfigCrossing.run_snoc, ← ih, SdrTop.run,
        runFrom_snoc, ← SdrTop.run]
      cases e <;> rfl

theorem paced_of_isPrefix {es fs : List Edge} (h : Paced fs) (hpre : es <+: fs) : Paced es := by
  obtain ⟨rest, rfl⟩ := hpre
  induction rest using List.reverseRecOn with
  | nil =>
      simpa using h
  | append_singleton rest e ih =>
      rw [← List.append_assoc] at h
      exact ih h.of_snoc

theorem Issues.of_isPrefix {ws : List Write} {ps qs : List AxiLiteSlave.Ports} (h : Issues ws qs)
    (hpre : ps <+: qs) : Issues ws ps := by
  obtain ⟨rest, rfl⟩ := hpre
  have haw := h.aw
  have hw := h.w
  rw [emits_append] at haw hw
  exact ⟨(List.prefix_append _ _).trans haw, (List.prefix_append _ _).trans hw⟩

theorem not_enabled_zero (rst : Bool) (p : SdrTop.AdcPorts) {sync : ConfigSync.State 202}
    (h : sync.dstData = 0) : (SdrTop.coreInputs sync rst p).coreEnable = false := by
  simp [SdrTop.coreInputs, SdrTop.coreEnableAdc, h]

theorem toNat_low_decimation {rate : BitVec 32}
    (h : rate = 125000 ∨ rate = 250000 ∨ rate = 500000 ∨ rate = 1000000) :
    (if (sdrDecimationForRate rate).extractLsb' 0 16 = 0 then (1 : BitVec 16)
      else (sdrDecimationForRate rate).extractLsb' 0 16).toNat =
        (sdrDecimationForRate rate).toNat := by
  rcases h with rfl | rfl | rfl | rfl <;> decide

/-- A checked request, programmed and carried over, is what the signal path is given. -/
theorem requested_programmed {rx : RxConfig} (hvalid : ValidRx rx) (rst : Bool)
    (p : SdrTop.AdcPorts) {sync : ConfigSync.State 202}
    (h : sync.dstData = cfgCtrl (programmed rx)) :
    Requested (SdrTop.coreInputs sync rst p) rx := by
  obtain ⟨hchannel, hword, hdecim, hshift, hfreq, hrate, hbandwidth, hgain⟩ :=
    unpack_cfgCtrl (programmed rx)
  rw [← h] at hchannel hword hdecim hshift hfreq hrate hbandwidth hgain
  have hdescribes := describes_programmed hvalid
  refine ⟨?_, hfreq, ?_, hrate, ?_, hbandwidth, hshift, hgain, hvalid.min_le, hvalid.le_max⟩
  · exact hchannel.trans hdescribes.adcChannel
  · rw [← hdescribes.freqWord, ← hword]
    rfl
  · -- The rates there are give decimations of sixteen bits.
    have hsmall : ((programmed rx).ddc0DecimRate.toNat : Nat) =
        (sdrDecimationForRate rx.iqSampleRateHz).toNat := by
      rw [Regs.ddc0DecimRate, programmed, hvalid.decimation]
      exact toNat_low_decimation hvalid.rate
    show (SdrTop.ddc0DecimRateAdc sync.dstData).toNat * _ = _
    rw [hdecim, hsmall]
    exact sdrDecimationForRate_mul hvalid.rate

/-- Once all writes have been applied, registered and sampled, the ADC side has the handler's
registers. -/
theorem dstData_current {lines : List LineEvent} {es : List Edge} (hreset : NoReset es)
    (hpace : Paced es)
    (hall : emits AxiLiteSlave.clock AxiLiteSlave.applied AxiLiteSlave.resetState
      (es.filterMap axiPorts) = hwWrites lines) (hedges : AdcEdgesSinceUpdate 3 es)
    (hsome : registeredOf es ≠ []) (hquiet : srcUpdate (run es) = false) :
    (run es).sync.dstData = cfgCtrl (Board.run lines).regs := by
  obtain ⟨hsrc, ⟨p, hp⟩, ks, last, hloaded⟩ := crossing_of_paced es hreset hpace
  have hloads : ks.length = (registeredOf es).length := by
    rw [← hp.sent, ← (hp.settled 3 hedges).seen3_eq (Nat.le_refl 3), hp.loaded, hloaded.values,
      List.length_map]
  have hks : ks ≠ [] := by
    rw [← List.length_pos_iff, hloads]
    exact List.length_pos_iff.2 hsome
  have hcount := hsrc.count
  rw [hquiet, Bool.toNat_false, Nat.add_zero] at hcount
  have hlast : last = (ConfigCrossing.writesOf es).length := by
    have hge := hloaded.length_le
    have hle := hloaded.last_le
    omega
  rw [hloaded.data hks, hlast, configAfter, List.take_length, writesOf_eq_filter hreset,
    applyAll_filter, hall, regs_run]

/-- Whatever lines the handler gets, whatever the hooks answer, and however late the AXI writes and
the ADC clock are: in every cycle in which the signal path is told to stream, its configuration inputs
are those of one request that passed the checks of `cmd_set_rx`.  And when the writes have come through,
they are those of the handler's registers. -/
theorem streams_requested_config {lines : List LineEvent} {es : List SdrTop.Edge}
    (hreset : NoReset (es.map ctrlEdge)) (hpace : Paced (es.map ctrlEdge))
    (hissues : Issues (hwWrites lines) ((es.map ctrlEdge).filterMap axiPorts)) :
    (∀ i ∈ SdrTop.coreInputsOf es, i.coreEnable = true → i.ddc0Enable = true →
      ∃ rx, Accepted lines rx ∧ Requested i rx) ∧
      (emits AxiLiteSlave.clock AxiLiteSlave.applied AxiLiteSlave.resetState
          ((es.map ctrlEdge).filterMap axiPorts) = hwWrites lines →
        AdcEdgesSinceUpdate 3 (es.map ctrlEdge) → registeredOf (es.map ctrlEdge) ≠ [] →
          srcUpdate (SdrTop.run es).ctrl = false →
            (SdrTop.run es).ctrl.sync.dstData = cfgCtrl (Board.run lines).regs) := by
  constructor
  · intro i hi hcore hddc
    obtain ⟨done, e, hpre, hfed⟩ := exists_of_mem_emits hi
    cases e with
    | axi rst ports =>
        cases hfed
    | adc rst ports =>
        obtain rfl := List.mem_singleton.1 hfed
        change (SdrTop.coreInputs (SdrTop.run done).ctrl.sync rst ports).coreEnable = true at hcore
        change (SdrTop.coreInputs (SdrTop.run done).ctrl.sync rst ports).ddc0Enable = true at hddc
        change ∃ rx, Accepted lines rx ∧
          Requested (SdrTop.coreInputs (SdrTop.run done).ctrl.sync rst ports) rx
        have hdone : done.map ctrlEdge <+: es.map ctrlEdge :=
          ((List.prefix_append done _).trans hpre).map ctrlEdge
        have hresetDone : NoReset (done.map ctrlEdge) := fun e he => hreset e (hdone.subset he)
        -- What has arrived is a prefix of the writes, which streams only a request.
        rcases dstData_cases hresetDone (paced_of_isPrefix hpace hdone)
          (hissues.of_isPrefix (hdone.filterMap axiPorts)) with hzero | ⟨k, hk⟩
        · rw [← ctrl_run] at hzero
          rw [not_enabled_zero rst ports hzero] at hcore
          cases hcore
        · rw [← ctrl_run] at hk
          obtain ⟨henable, hddcEnable⟩ :=
            SdrTop.enables_cfgCtrl (Regs.reset.applyAll ((hwWrites lines).take k))
          rw [← hk] at henable hddcEnable
          obtain ⟨rx, haccepted, hvalid, hprog⟩ := streaming_prefix lines k
            ⟨henable.symm.trans hcore, hddcEnable.symm.trans hddc⟩
          rw [hprog] at hk
          exact ⟨rx, haccepted, requested_programmed hvalid rst ports hk⟩
  · intro hall hedges hsome hquiet
    rw [ctrl_run] at hquiet ⊢
    exact dstData_current hreset hpace hall hedges hsome hquiet

/-- Every write of `tuneLine`, with an ADC edge after each of seven AXI edges. -/
def tuneEdges : List SdrTop.Edge :=
  let adc : SdrTop.Edge := .adc false
    { adcCh0Sample14 := 0
      adcCh1Sample14 := 0
      adcSampleValid := true
      clearCountsAdc := false
      iqAdcTready := true }
  (hwWrites [tuneLine]).flatMap fun w =>
    let ports : AxiLiteSlave.Ports :=
      { idlePorts with
        awaddr := w.addr.setWidth 32
        awvalid := true
        wdata := w.data
        wstrb := w.strb
        wvalid := true }
    .axi false ports :: adc :: (List.replicate 6 [.axi false idlePorts, adc]).flatten

theorem streams_requested_config_tuneEdges :
    ∃ i ∈ SdrTop.coreInputsOf tuneEdges, ∃ rx, Accepted [tuneLine] rx ∧ Requested i rx := by
  have hreset : NoReset (tuneEdges.map ctrlEdge) := by decide +kernel
  have hpace : Paced (tuneEdges.map ctrlEdge) := by decide +kernel
  have hissues : Issues (hwWrites [tuneLine]) ((tuneEdges.map ctrlEdge).filterMap axiPorts) :=
    ⟨by decide +kernel, by decide +kernel⟩
  have hsome : ∃ i ∈ SdrTop.coreInputsOf tuneEdges, i.coreEnable = true ∧ i.ddc0Enable = true := by
    decide +kernel
  obtain ⟨i, hi, hcore, hddc⟩ := hsome
  exact ⟨i, hi, (streams_requested_config hreset hpace hissues).1 i hi hcore hddc⟩

end Top

end Bridge
end Sdr
