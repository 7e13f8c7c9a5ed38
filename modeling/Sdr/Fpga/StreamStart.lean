import Sdr.Fpga.SdrTop
import Sdr.Fpga.PacketTimestamps

/-!
# StreamStart — the first packet of an enabled stream

`dst_update` is high one ADC cycle before the new configuration is there.  When the update enables the
stream, the packetizer still sees the stream disabled and ignores it; when the update disables the
stream, the packetizer still sees it enabled and starts afresh.  So a stream that is enabled carries on
with the timestamp of the cycle in which it was last told to start afresh (`seedCycle`), and that is
right only if the ADC has counted nothing in between (`stream_starts_iff`).
-/

namespace Sdr
namespace Fpga

open Lib

/-! ## A packetizer that has been told to start afresh -/

namespace IqPacketizer

/-- Since then no packet has closed; `t` is the timestamp it was given. -/
structure Seeded (t : BitVec 64) (s : State) : Prop where
  seq : s.packetSeq = 0
  first : s.firstPacket = true
  next : s.nextPacketTimestamp = t
  current : s.state = .header ∨ s.state = .payload → s.packetTimestamp = t

/-- The edge takes the last word of a packet. -/
def closes (p : Params) (s : State) (i : Inputs) : Bool :=
  decide (Streaming i) && (i.sAxisTvalid && sAxisTready s i) &&
    (s.payloadCount == p.frameSamples - 1)

/-- The edge tells the packetizer to start afresh. -/
def reconfigures (i : Inputs) : Bool :=
  i.enable && i.configChanged

variable {p : Params} {s : State} {i : Inputs} {t : BitVec 64}

theorem seeded_reset : Seeded 0 resetState := by
  refine ⟨rfl, rfl, rfl, ?_⟩
  simp [resetState]

theorem seeded_reconfigures (hrst : i.rst = false) (h : reconfigures i = true) :
    Seeded i.adcTimestampSeed (step p s i) := by
  rw [reconfigures, Bool.and_eq_true] at h
  have hstep : step p s i = reconfigure (drain s i) i := by simp [step, hrst, h.1, h.2]
  rw [hstep]
  refine ⟨rfl, rfl, rfl, ?_⟩
  simp [reconfigure]

theorem seeded_drain : Seeded t (drain s i) ↔ Seeded t s := by
  unfold drain
  split
  · constructor
    · intro h
      exact ⟨h.seq, h.first, h.next, h.current⟩
    · intro h
      exact ⟨h.seq, h.first, h.next, h.current⟩
  · exact Iff.rfl

/-- Nothing else than a closing packet ends it. -/
theorem seeded_step (h : Seeded t s) (hrst : i.rst = false) (hsame : reconfigures i = false)
    (hopen : closes p s i = false) : Seeded t (step p s i) := by
  have hdrain : Seeded t (drain s i) := seeded_drain.2 h
  rcases drain_fields s i with ⟨hstate, _, hcount⟩
  cases hen : i.enable with
  | false =>
      have hstep : step p s i = disable (drain s i) := by simp [step, hrst, hen]
      rw [hstep]
      exact ⟨hdrain.seq, rfl, hdrain.next, by simp [disable]⟩
  | true =>
      have hcfg : i.configChanged = false := by simpa [reconfigures, hen] using hsame
      have hi : Streaming i := ⟨hrst, hen, hcfg⟩
      rw [step_streaming hi]
      split
      · next hready =>
          unfold advance
          cases hs : s.state with
          | idle =>
              rw [hstate, hs]
              exact ⟨hdrain.seq, hdrain.first, hdrain.next, fun _ => hdrain.next⟩
          | header =>
              have hcurrent := hdrain.current (.inl (hstate.trans hs))
              rw [hstate, hs]
              exact ⟨hdrain.seq, hdrain.first, hdrain.next, fun _ => hcurrent⟩
          | payload =>
              have hcurrent := hdrain.current (.inr (hstate.trans hs))
              rw [hstate, hs]
              dsimp only
              split
              · next hvalid =>
                  -- The last word would have closed the packet.
                  have hmore : (drain s i).payloadCount ≠ p.frameSamples - 1 := by
                    intro hlast
                    rw [hcount] at hlast
                    simp [closes, hi, hvalid, sAxisTready, hs, hready, hlast] at hopen
                  rw [putPayload, if_neg hmore]
                  exact ⟨hdrain.seq, hdrain.first, hdrain.next, fun _ => hcurrent⟩
              · exact hdrain
          | other =>
              rw [hstate, hs]
              exact ⟨hdrain.seq, hdrain.first, hdrain.next, by simp⟩
      · exact hdrain

end IqPacketizer

/-! ## The seed of a run -/

namespace SdrPlCore

open Protocol
open IqPacketizer (Seeded headerOf)

/-- In cycle `k` the packetizer is told to start afresh. -/
def reconfiguresAt (is : List Inputs) (k : Nat) : Bool :=
  is[k]?.any fun i => enable i && i.ddc0ConfigChanged

/-- In cycle `k` the last word of a packet is taken. -/
def closesAt (is : List Inputs) (k : Nat) : Bool :=
  is[k]?.any fun i =>
    IqPacketizer.closes packetizerParams (stateAt step resetState is k).iq
      (packetizerInputs (stateAt step resetState is k) i)

/-- The last cycle before `k` in which the packetizer was told to start afresh, and if there is none the
first cycle out of reset. -/
def seedCycle (is : List Inputs) : Nat → Nat
  | 0 => 0
  | k + 1 => if reconfiguresAt is k then k else seedCycle is k

/-- A packet has closed since then. -/
def closedSince (is : List Inputs) : Nat → Bool
  | 0 => false
  | k + 1 => if reconfiguresAt is k then false else closedSince is k || closesAt is k

/-- The active ADC samples before cycle `k`. -/
def activeBefore (is : List Inputs) (k : Nat) : Nat :=
  (is.take k).countP adcActiveValid

section Run

variable {is : List Inputs}

theorem adcTimestamp_stateAt (hrst : ∀ i ∈ is, i.rst = false) {k : Nat} (hk : k ≤ is.length) :
    (stateAt step resetState is k).adcTimestamp = BitVec.ofNat 64 (activeBefore is k) := by
  induction k with
  | zero => rfl
  | succ k ih =>
      have hget : is[k]? = some is[k] := List.getElem?_eq_getElem (by omega)
      have hnow : (step (stateAt step resetState is k) is[k]).adcTimestamp =
          timestampCounter (stateAt step resetState is k).adcTimestamp false (adcActiveValid is[k]) := by
        rw [← hrst is[k] (List.getElem_mem _)]
        rfl
      rw [stateAt_succ hget, hnow, ih (by omega), activeBefore, activeBefore, List.take_add_one, hget,
        List.countP_append, timestampCounter]
      cases hactive : adcActiveValid is[k] with
      | false => simp [hactive]
      | true =>
          simp only [Bool.false_eq_true, if_false, if_true, Option.toList_some, List.countP_singleton,
            hactive]
          rw [BitVec.ofNat_add]
          rfl

/-- Until a packet closes the packetizer keeps the timestamp of the seed cycle. -/
theorem seeded_stateAt (hrst : ∀ i ∈ is, i.rst = false) {k : Nat} (hk : k ≤ is.length)
    (hopen : closedSince is k = false) :
    Seeded (stateAt step resetState is (seedCycle is k)).adcTimestamp
      (stateAt step resetState is k).iq := by
  induction k with
  | zero => exact IqPacketizer.seeded_reset
  | succ k ih =>
      have hget : is[k]? = some is[k] := List.getElem?_eq_getElem (by omega)
      have hi : (packetizerInputs (stateAt step resetState is k) is[k]).rst = false :=
        hrst is[k] (List.getElem_mem _)
      rw [stateAt_succ hget]
      rw [closedSince] at hopen
      rw [seedCycle]
      cases hre : reconfiguresAt is k with
      | true =>
          rw [if_pos rfl]
          refine IqPacketizer.seeded_reconfigures hi ?_
          simpa [reconfiguresAt, hget, IqPacketizer.reconfigures, packetizerInputs] using hre
      | false =>
          rw [hre] at hopen
          simp only [Bool.false_eq_true, if_false, Bool.or_eq_false_iff] at hopen ⊢
          refine IqPacketizer.seeded_step (ih (by omega) hopen.1) hi ?_ ?_
          · simpa [reconfiguresAt, hget, IqPacketizer.reconfigures, packetizerInputs] using hre
          · simpa [closesAt, hget] using hopen.2

/-! ## The enables move only after an update -/

/-- The stream is enabled or disabled only in the cycle after an update. -/
def Announced (is : List Inputs) : Prop :=
  is.IsChain fun i j => enable j = enable i ∨ i.ddc0ConfigChanged = true

theorem closesAt_of_disabled {k : Nat} {i : Inputs} (hk : is[k]? = some i)
    (hdisabled : enable i = false) : closesAt is k = false := by
  have hnot : ¬ IqPacketizer.Streaming (packetizerInputs (stateAt step resetState is k) i) := by
    rintro ⟨_, hen, _⟩
    exact absurd (hen.symm.trans hdisabled) (by decide)
  simp [closesAt, hk, IqPacketizer.closes, hnot]

/-- No packet has closed since the seed cycle while the stream is disabled. -/
theorem closedSince_of_disabled (h : Announced is) {k : Nat} {i : Inputs} (hk : is[k]? = some i)
    (hdisabled : enable i = false) : closedSince is k = false := by
  induction k generalizing i with
  | zero => rfl
  | succ k ih =>
      have hlen := (List.getElem?_eq_some_iff.1 hk).1
      have hget : is[k]? = some is[k] := List.getElem?_eq_getElem (by omega)
      rw [closedSince]
      cases hen : enable is[k] with
      | true =>
          -- The update that disables the stream tells the packetizer to start afresh.
          have hstep := List.IsChain.getElem h k hlen
          have hi : is[k + 1] = i := (List.getElem?_eq_some_iff.1 hk).2
          rw [hi, hen, hdisabled] at hstep
          have hre : reconfiguresAt is k = true := by
            simpa [reconfiguresAt, hget, hen] using hstep
          rw [hre, if_pos rfl]
      | false =>
          have hre : reconfiguresAt is k = false := by simp [reconfiguresAt, hget, hen]
          rw [hre, closesAt_of_disabled hget hen, ih hget hen]
          rfl

/-- The stream is enabled in cycle `m` and was disabled in the cycle before. -/
def Enables (is : List Inputs) (m : Nat) : Prop :=
  0 < m ∧ is[m - 1]?.any (fun i => !enable i) = true ∧ is[m]?.any enable = true

/-- The first packet to complete in cycle `m` or later does so in cycle `q`. -/
def FirstCompleted (is : List Inputs) (m q : Nat) : Prop :=
  m ≤ q ∧ closesAt is q = true ∧ ∀ k < q, m ≤ k → closesAt is k = false

instance (is : List Inputs) (m : Nat) : Decidable (Enables is m) :=
  inferInstanceAs (Decidable (_ ∧ _ ∧ _))

/-- The header of the packet that completes in cycle `q` is that of a stream which began in cycle `m`. -/
structure StartsAt (is : List Inputs) (m q : Nat) : Prop where
  seq : (headerOf packetizerParams (stateAt step resetState is q).iq).seq = 0
  flags : IqPacketizer.packetFlags (stateAt step resetState is q).iq &&&
      (IqPacketizer.FLAG_DISCONTINUITY ||| IqPacketizer.FLAG_CONFIG_CHANGED) =
    IqPacketizer.FLAG_DISCONTINUITY ||| IqPacketizer.FLAG_CONFIG_CHANGED
  timestamp : (headerOf packetizerParams (stateAt step resetState is q).iq).adcTimestamp =
    (stateAt step resetState is m).adcTimestamp.toNat

theorem closedSince_of_firstCompleted (h : Announced is) {m q : Nat} (henables : Enables is m)
    (hfirst : FirstCompleted is m q) : closedSince is q = false := by
  rcases henables with ⟨hpos, hbefore, _⟩
  rcases hfirst with ⟨hmq, hclose, hnone⟩
  clear hclose
  rcases Nat.exists_eq_succ_of_ne_zero (Nat.ne_of_gt hpos) with ⟨n, rfl⟩
  rw [Nat.succ_sub_one] at hbefore
  rcases (Option.any_eq_true _ _).1 hbefore with ⟨i, hi, hdisabled⟩
  rw [Bool.not_eq_true'] at hdisabled
  -- The cycle before is disabled, and no packet closes from then on.
  have hstart : closedSince is (n + 1) = false := by
    have hre : reconfiguresAt is n = false := by simp [reconfiguresAt, hi, hdisabled]
    rw [closedSince, hre, closedSince_of_disabled h hi hdisabled, closesAt_of_disabled hi hdisabled]
    rfl
  induction q, hmq using Nat.le_induction with
  | base => exact hstart
  | succ q hmq ih =>
      have hopen := hnone q (Nat.lt_succ_self q) hmq
      have hsofar := ih (fun k hk hmk => hnone k (Nat.lt_succ_of_lt hk) hmk)
      rw [closedSince, hopen, hsofar]
      split <;> rfl

/-- The cycles of a run in which a packet completes. -/
def closeCycles (is : List Inputs) : List Bool :=
  emits step (fun s i => [IqPacketizer.closes packetizerParams s.iq (packetizerInputs s i)]) resetState is

theorem closesAt_iff {k : Nat} : closesAt is k = true ↔ (closeCycles is)[k]? = some true := by
  rw [closeCycles, getElem?_emits_one, closesAt, Option.any_eq_true, Option.map_eq_some_iff]

theorem firstCompleted_of_closeCycles {m q : Nat} (hmq : m ≤ q)
    (h : (closeCycles is).take (q + 1) = List.replicate q false ++ [true]) :
    FirstCompleted is m q := by
  have hget : ∀ k < q + 1, (closeCycles is)[k]? = (List.replicate q false ++ [true])[k]? := by
    intro k hk
    rw [← h, List.getElem?_take_of_lt hk]
  refine ⟨hmq, ?_, ?_⟩
  · rw [closesAt_iff, hget q (Nat.lt_succ_self q)]
    simp
  · intro k hk _
    rw [← Bool.not_eq_true, closesAt_iff, hget k (by omega), List.getElem?_append_left (by simpa using hk),
      List.getElem?_replicate, if_pos hk]
    simp

theorem payload_of_closesAt {q : Nat} (h : closesAt is q = true) :
    q < is.length ∧ (stateAt step resetState is q).iq.state = .payload := by
  rcases (Option.any_eq_true _ _).1 h with ⟨i, hi, hcloses⟩
  refine ⟨(List.getElem?_eq_some_iff.1 hi).1, ?_⟩
  simp only [IqPacketizer.closes, IqPacketizer.sAxisTready, Bool.and_eq_true, beq_iff_eq] at hcloses
  exact hcloses.1.2.2.1

theorem seedCycle_le (is : List Inputs) (k : Nat) : seedCycle is k ≤ k := by
  induction k with
  | zero => exact Nat.le_refl 0
  | succ k ih =>
      rw [seedCycle]
      split
      · omega
      · omega

theorem startsAt_iff (hrst : ∀ i ∈ is, i.rst = false) (h : Announced is) {m q : Nat}
    (henables : Enables is m) (hfirst : FirstCompleted is m q) :
    StartsAt is m q ↔ activeBefore is (seedCycle is q) ≡ activeBefore is m [MOD 2 ^ 64] := by
  rcases payload_of_closesAt hfirst.2.1 with ⟨hq, hpayload⟩
  have hmq : m ≤ q := hfirst.1
  have hseed := seedCycle_le is q
  have hseeded := seeded_stateAt hrst (Nat.le_of_lt hq) (closedSince_of_firstCompleted h henables hfirst)
  have hcurrent := hseeded.current (.inr hpayload)
  have htimestamp : (headerOf packetizerParams (stateAt step resetState is q).iq).adcTimestamp =
      ((stateAt step resetState is (seedCycle is q)).adcTimestamp.toNat : Int) := by
    rw [headerOf, hcurrent]
  rw [adcTimestamp_stateAt hrst (by omega), BitVec.toNat_ofNat] at htimestamp
  have hcounter : (stateAt step resetState is m).adcTimestamp.toNat = activeBefore is m % 2 ^ 64 := by
    rw [adcTimestamp_stateAt hrst (by omega), BitVec.toNat_ofNat]
  constructor
  · intro hstarts
    have hsame := hstarts.timestamp
    rw [htimestamp, hcounter] at hsame
    exact Int.ofNat.inj hsame
  · intro hsame
    refine ⟨?_, ?_, ?_⟩
    · rw [headerOf, hseeded.seq]
      rfl
    · rw [IqPacketizer.packetFlags, hseeded.first, if_pos rfl]
      ext k hk
      rw [BitVec.getElem_and, BitVec.getElem_or]
      cases (stateAt step resetState is q).iq.flagsLatched[k] <;> simp
    · rw [htimestamp, hcounter]
      exact congrArg Int.ofNat hsame

end Run

end SdrPlCore

/-! ## The configuration as the crossing delivers it -/

namespace SdrTop

open SdrPlCore (Enables FirstCompleted StartsAt activeBefore seedCycle Announced)

/-- The `enable` of the signal path in the next ADC cycle. -/
def enableAdc (s : State) : Bool :=
  coreEnableAdc s.ctrl.sync.dstData && ddc0EnableAdc s.ctrl.sync.dstData

theorem coreInputsOf_snoc (es : List Edge) (e : Edge) :
    coreInputsOf (es ++ [e]) = coreInputsOf es ++ fed (run es) e :=
  emits_snoc step fed resetState es e

theorem run_snoc (es : List Edge) (e : Edge) : run (es ++ [e]) = step (run es) e :=
  runFrom_snoc step resetState es e

/-- The signal path runs on the inputs it is given. -/
theorem core_run (es : List Edge) : (run es).core = SdrPlCore.run (coreInputsOf es) := by
  induction es using List.reverseRecOn with
  | nil => rfl
  | append_singleton es e ih =>
      rw [run_snoc, coreInputsOf_snoc, SdrPlCore.run, runFrom_append, ← SdrPlCore.run, ← ih]
      cases e with
      | axi rst ports => rfl
      | adc rst ports => rfl

theorem NoAdcReset.of_snoc {es : List Edge} {e : Edge} (h : NoAdcReset (es ++ [e])) :
    NoAdcReset es ∧ ∀ i ∈ fed (run es) e, i.rst = false := by
  unfold NoAdcReset at h ⊢
  rw [coreInputsOf_snoc] at h
  exact ⟨fun i hi => h i (List.mem_append_left _ hi), fun i hi => h i (List.mem_append_right _ hi)⟩

/-- Between the last ADC cycle and the next the enable moves only if the last one had an update. -/
theorem announced_run (es : List Edge) (hrst : NoAdcReset es) :
    Announced (coreInputsOf es) ∧
      ∀ i ∈ (coreInputsOf es).getLast?,
        enableAdc (run es) = SdrPlCore.enable i ∨ i.ddc0ConfigChanged = true := by
  induction es using List.reverseRecOn with
  | nil => exact ⟨List.IsChain.nil, by simp [coreInputsOf]⟩
  | append_singleton es e ih =>
      rcases ih hrst.of_snoc.1 with ⟨hchain, hlast⟩
      rw [run_snoc, coreInputsOf_snoc]
      cases e with
      | axi rst ports =>
          -- The source side has no hand in `dst_data`.
          have hsame : enableAdc (step (run es) (.axi rst ports)) = enableAdc (run es) := by
            simp only [enableAdc, step, ConfigCrossing.step, ConfigSync.srcEdge]
            split
            · rfl
            · split <;> rfl
          rw [fed, List.append_nil, hsame]
          exact ⟨hchain, hlast⟩
      | adc rst ports =>
          have hlow : rst = false := hrst.of_snoc.2 _ (List.mem_singleton_self _)
          subst hlow
          constructor
          · refine List.isChain_append.2 ⟨hchain, List.isChain_singleton _, ?_⟩
            intro i hi j hj
            cases hj
            exact hlast i hi
          · intro i hi
            rw [fed, List.getLast?_append, List.getLast?_singleton] at hi
            cases hi
            cases hupdate : ConfigSync.dstUpdate (run es).ctrl.sync with
            | true => exact .inr hupdate
            | false =>
                left
                simp only [enableAdc, step, ConfigCrossing.step, ConfigSync.dstEdge, hupdate,
                  Bool.false_eq_true, if_false]
                rfl

/-- The first packet of an enabled stream begins in the cycle in which the stream is enabled, if and only
if the ADC has counted no sample (or a multiple of the counter's range) between that cycle and the one in
which the packetizer was last told to start afresh. -/
theorem stream_starts_iff (es : List Edge) (hrst : NoAdcReset es) (m q : Nat)
    (henables : Enables (coreInputsOf es) m) (hfirst : FirstCompleted (coreInputsOf es) m q) :
    StartsAt (coreInputsOf es) m q ↔
      activeBefore (coreInputsOf es) (seedCycle (coreInputsOf es) q) ≡
        activeBefore (coreInputsOf es) m [MOD 2 ^ 64] :=
  SdrPlCore.startsAt_iff hrst (announced_run es hrst).1 henables hfirst

/-! ### Two orders of the same writes -/

def sampling : AdcPorts where
  adcCh0Sample14 := 100
  adcCh1Sample14 := 0
  adcSampleValid := true
  clearCountsAdc := false
  iqAdcTready := true

/-- A register is written and its update delivered, while the ADC runs. -/
def written (reg : CsrRegfile.Register) (data : BitVec 32) : List Edge :=
  [.axi false (ConfigCrossing.writePorts reg data), .axi false ConfigCrossing.idlePorts,
    .axi false ConfigCrossing.idlePorts] ++ List.replicate 4 (.adc false sampling)

/-- The core is enabled last. -/
def coreLast : List Edge :=
  written .ddc0Decim 1 ++ written .ddc0Control 1 ++ written .control 1 ++
    List.replicate 290 (.adc false sampling)

/-- The core is enabled first, as the bridge does it. -/
def coreFirst : List Edge :=
  written .ddc0Decim 1 ++ written .control 1 ++ written .ddc0Control 1 ++
    List.replicate 290 (.adc false sampling)

theorem stream_starts_coreLast : StartsAt (coreInputsOf coreLast) 11 289 := by
  have hcloses : (SdrPlCore.closeCycles (coreInputsOf coreLast)).take 290 =
      List.replicate 289 false ++ [true] := by decide +kernel
  refine (stream_starts_iff coreLast (by decide +kernel) 11 289 (by decide +kernel)
    (SdrPlCore.firstCompleted_of_closeCycles (by omega) hcloses)).2 ?_
  have hseed : seedCycle (coreInputsOf coreLast) 289 = 0 := by decide +kernel
  have hactive : activeBefore (coreInputsOf coreLast) 11 = 0 := by decide +kernel
  rw [hseed, hactive]
  rfl

/-- Every update has been loaded on the ADC side when the next one is registered. -/
def DeliveredBefore (s : State) : Edge → Prop
  | .axi _ _ =>
    ConfigCrossing.srcUpdate s.ctrl = true →
      s.ctrl.sync.dstMeta = s.ctrl.sync.srcToggle ∧ s.ctrl.sync.dstSync = s.ctrl.sync.srcToggle ∧
        s.ctrl.sync.dstSyncD = s.ctrl.sync.srcToggle
  | .adc _ _ => True

instance (s : State) : (e : Edge) → Decidable (DeliveredBefore s e)
  | .axi _ _ => inferInstanceAs (Decidable (_ → _ ∧ _ ∧ _))
  | .adc _ _ => inferInstanceAs (Decidable True)

/-- Four samples have been counted when the stream is enabled, and its first packet has timestamp 0. -/
theorem not_stream_starts_coreFirst :
    ¬ ∀ (es : List Edge), NoAdcReset es → Along step DeliveredBefore resetState es →
      ∀ m q, Enables (coreInputsOf es) m → FirstCompleted (coreInputsOf es) m q →
        StartsAt (coreInputsOf es) m q := by
  intro h
  have hcloses : (SdrPlCore.closeCycles (coreInputsOf coreFirst)).take 289 =
      List.replicate 288 false ++ [true] := by decide +kernel
  have hstarts := h coreFirst (by decide +kernel) (by decide +kernel) 11 288 (by decide +kernel)
    (SdrPlCore.firstCompleted_of_closeCycles (by omega) hcloses)
  have htimestamp := hstarts.timestamp
  have hheader : (IqPacketizer.headerOf SdrPlCore.packetizerParams
      (stateAt SdrPlCore.step SdrPlCore.resetState (coreInputsOf coreFirst) 288).iq).adcTimestamp =
        0 := by decide +kernel
  have hcounter : (stateAt SdrPlCore.step SdrPlCore.resetState
      (coreInputsOf coreFirst) 11).adcTimestamp.toNat = 4 := by decide +kernel
  rw [hheader, hcounter] at htimestamp
  cases htimestamp

end SdrTop

end Fpga
end Sdr
