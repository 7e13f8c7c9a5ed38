import Sdr.Lib.Machine
import Sdr.Fpga.AxiLiteSlave
import Sdr.Fpga.ConfigSync

/-!
# ConfigCrossing — the configuration on its way to the ADC clock domain

`fpga/rtl/top/sdr_top.v` packs the outputs of the register file into one bus and hands it to
`config_sync`, with `ddc0_config_changed | soft_reset_pulse` as the update.  One step of this model
is one rising edge of one of the two clocks; two simultaneous edges are two steps, in either order.

A toggle that flips twice between two ADC edges says nothing, so delivery rests on timing: the AXI
handshake spaces updates three cycles apart, and three cycles contain an ADC edge (`Paced`).
`Crossing` is the invariant of a run, and the module's main result reads the delivery guarantees
off it.
-/

namespace Sdr
namespace Fpga
namespace ConfigCrossing

open Lib
open CsrRegfile

/-! ## Wiring -/

/-- `cfg_ctrl`, most significant field first; the ADC side unpacks it in the same order. -/
def cfgCtrl (r : Regs) : BitVec 202 :=
  r.ddc0GainDbQ8 ++ r.ddc0Bandwidth ++ r.ddc0IqRate ++ r.ddc0FrequencyHz ++ r.ddc0GainShift ++
    r.ddc0DecimRate ++ r.ddc0FreqWord ++ BitVec.ofBool r.ddc0AdcChannel ++
    BitVec.ofBool r.ddc0Enable ++ BitVec.ofBool r.adcOffsetBinary ++ BitVec.ofBool r.coreEnable

structure State where
  axi : AxiLiteSlave.State
  sync : ConfigSync.State 202

def resetState : State where
  axi := AxiLiteSlave.resetState
  sync := ConfigSync.resetState 202

/-- A rising edge of `s_axi_aclk` with the slave's inputs, or of `adc_sample_clk`; `rst` is the
reset of the domain. -/
inductive Edge
  | axi (rst : Bool) (ports : AxiLiteSlave.Ports)
  | adc (rst : Bool)

namespace Edge

def rst : Edge → Bool
  | .axi rst _ => rst
  | .adc rst => rst

def isAdc : Edge → Bool
  | .axi _ _ => false
  | .adc _ => true

end Edge

def srcUpdate (s : State) : Bool :=
  s.axi.csr.ddc0ConfigChanged || s.axi.csr.softResetPulse

def step (s : State) : Edge → State
  | .axi rst ports =>
      { axi := AxiLiteSlave.step s.axi rst ports
        sync := ConfigSync.srcEdge s.sync rst (cfgCtrl s.axi.csr.regs) (srcUpdate s) }
  | .adc rst => { s with sync := ConfigSync.dstEdge s.sync rst }

/-! ## What a run shows -/

/-- The configuration write applied to the registers at an edge. -/
def configWrites (s : State) : Edge → List Write
  | .axi rst _ => if rst then [] else AxiLiteSlave.configWrite s.axi
  | .adc _ => []

/-- The value registered in `src_hold` at an edge. -/
def registered (s : State) : Edge → List (BitVec 202)
  | .axi rst _ => if !rst && srcUpdate s then [cfgCtrl s.axi.csr.regs] else []
  | .adc _ => []

/-- `dst_update` in the ADC cycle that an edge opens. -/
def dstUpdates (s : State) : Edge → List Bool
  | .axi _ _ => []
  | .adc rst => [ConfigSync.dstUpdate (ConfigSync.dstEdge s.sync rst)]

/-- The value loaded into `dst_data` at an edge. -/
def loads (s : State) : Edge → List (BitVec 202)
  | .axi _ _ => []
  | .adc rst => if !rst && ConfigSync.dstUpdate s.sync then [s.sync.srcHold] else []

def run (es : List Edge) : State :=
  runFrom step resetState es

def writesOf (es : List Edge) : List Write :=
  emits step configWrites resetState es

def registeredOf (es : List Edge) : List (BitVec 202) :=
  emits step registered resetState es

def dstUpdatesOf (es : List Edge) : List Bool :=
  emits step dstUpdates resetState es

def loadsOf (es : List Edge) : List (BitVec 202) :=
  emits step loads resetState es

/-- The packed configuration after the first `k` of the writes `ws`. -/
def configAfter (ws : List Write) (k : Nat) : BitVec 202 :=
  cfgCtrl (Regs.reset.applyAll (ws.take k))

/-- Both domains are out of reset. -/
def NoReset (es : List Edge) : Prop :=
  ∀ e ∈ es, e.rst = false

/-- Every three consecutive AXI cycles contain an ADC edge: four consecutive edges are never all
AXI edges. -/
def Paced (es : List Edge) : Prop :=
  ∀ i < es.length - 3, ((es.drop i).take 4).any Edge.isAdc = true

instance (es : List Edge) : Decidable (NoReset es) :=
  inferInstanceAs (Decidable (∀ e ∈ es, e.rst = false))

instance (es : List Edge) : Decidable (Paced es) :=
  inferInstanceAs (Decidable (∀ i < es.length - 3, ((es.drop i).take 4).any Edge.isAdc = true))

/-- At least `n` ADC edges have passed since the last update was registered. -/
def AdcEdgesSinceUpdate (n : Nat) (es : List Edge) : Prop :=
  ∃ earlier since, es = earlier ++ since ∧
    emits step registered (run earlier) since = [] ∧ n ≤ since.countP Edge.isAdc

/-! ## Reading a run one edge further -/

theorem run_snoc (es : List Edge) (e : Edge) : run (es ++ [e]) = step (run es) e := by
  exact runFrom_snoc step resetState es e

theorem run_append (es fs : List Edge) : run (es ++ fs) = runFrom step (run es) fs := by
  exact runFrom_append step resetState es fs

theorem writesOf_snoc (es : List Edge) (e : Edge) :
    writesOf (es ++ [e]) = writesOf es ++ configWrites (run es) e := by
  exact emits_snoc step configWrites resetState es e

theorem registeredOf_snoc (es : List Edge) (e : Edge) :
    registeredOf (es ++ [e]) = registeredOf es ++ registered (run es) e := by
  exact emits_snoc step registered resetState es e

theorem dstUpdatesOf_snoc (es : List Edge) (e : Edge) :
    dstUpdatesOf (es ++ [e]) = dstUpdatesOf es ++ dstUpdates (run es) e := by
  exact emits_snoc step dstUpdates resetState es e

theorem loadsOf_snoc (es : List Edge) (e : Edge) :
    loadsOf (es ++ [e]) = loadsOf es ++ loads (run es) e := by
  exact emits_snoc step loads resetState es e

theorem NoReset.of_snoc {es : List Edge} {e : Edge} (h : NoReset (es ++ [e])) :
    NoReset es ∧ e.rst = false := by
  refine ⟨?_, h e (by simp)⟩
  intro e' he'
  exact h e' (by simp [he'])

theorem Paced.of_snoc {es : List Edge} {e : Edge} (h : Paced (es ++ [e])) : Paced es := by
  intro i hi
  have hwindow := h i (by simp; omega)
  rwa [List.drop_append_of_le_length (by omega),
    List.take_append_of_le_length (by simp; omega)] at hwindow

/-- The run ends in `tail`, AXI edges only. -/
def AxiTail (tail es : List Edge) : Prop :=
  tail <:+ es ∧ ∀ e ∈ tail, e.isAdc = false

theorem AxiTail.snoc {tail es : List Edge} (h : AxiTail tail es) (rst : Bool)
    (ports : AxiLiteSlave.Ports) :
    AxiTail (tail ++ [.axi rst ports]) (es ++ [.axi rst ports]) := by
  rcases h with ⟨⟨front, hfront⟩, haxi⟩
  refine ⟨⟨front, ?_⟩, ?_⟩
  · rw [← hfront, List.append_assoc]
  · intro e he
    rcases List.mem_append.1 he with he | he
    · exact haxi e he
    · rw [List.mem_singleton.1 he]
      rfl

/-- At the end of a paced run there are at most three AXI edges in a row. -/
theorem Paced.length_le {es tail : List Edge} (h : Paced es) (htail : AxiTail tail es) :
    tail.length ≤ 3 := by
  by_contra hlong
  rcases htail with ⟨⟨front, rfl⟩, haxi⟩
  have hlen : (front ++ tail).length = front.length + tail.length := List.length_append
  -- A longer tail would hold a whole window without an ADC edge.
  have hwindow := h ((front ++ tail).length - 4) (by omega)
  rcases List.any_eq_true.1 hwindow with ⟨e, he, hadc⟩
  have hmem : e ∈ tail := by
    have hdrop := List.mem_of_mem_take he
    rw [List.drop_append, List.drop_eq_nil_of_le (by omega), List.nil_append] at hdrop
    exact List.mem_of_mem_drop hdrop
  simp [haxi e hmem] at hadc

/-- What is known about the last edge of a run in which ADC edges have passed since the update. -/
theorem AdcEdgesSinceUpdate.of_snoc {n : Nat} {es : List Edge} {e : Edge}
    (h : AdcEdgesSinceUpdate n (es ++ [e])) (hn : n ≠ 0) :
    registered (run es) e = [] ∧ AdcEdgesSinceUpdate (n - e.isAdc.toNat) es := by
  rcases h with ⟨earlier, since, hes, hnone, hcount⟩
  -- The last edge is in `since`, for otherwise no ADC edge has passed.
  rcases List.eq_nil_or_concat since with rfl | ⟨since', e', rfl⟩
  · simp at hcount
    omega
  · rw [List.concat_eq_append, ← List.append_assoc] at hes
    rcases List.append_inj' hes rfl with ⟨rfl, hlast⟩
    cases hlast
    rw [List.concat_eq_append, emits_snoc, List.append_eq_nil_iff, ← run_append] at hnone
    refine ⟨hnone.2, earlier, since', rfl, hnone.1, ?_⟩
    cases hadc : e.isAdc <;> simp [hadc] at hcount ⊢ <;> omega

/-! ## The source side -/

/-- Registers, pending pulse and held bus against the writes applied and the values registered. -/
structure Sourced (ws : List Write) (regs : List (BitVec 202)) (s : State) : Prop where
  pulsed : AxiLiteSlave.Pulsed s.axi
  csr : s.axi.csr.regs = Regs.reset.applyAll ws
  count : regs.length + (srcUpdate s).toNat = ws.length
  values : regs = (List.range regs.length).map (fun i => configAfter ws (i + 1))
  hold : regs ≠ [] → s.sync.srcHold = configAfter ws regs.length

theorem srcUpdate_eq {s : State} (h : AxiLiteSlave.Pulsed s.axi) :
    srcUpdate s = s.axi.csr.ddc0ConfigChanged := by
  cases hsoft : s.axi.csr.softResetPulse with
  | false =>
      simp [srcUpdate, hsoft]
  | true =>
      simp [srcUpdate, hsoft, h.softReset hsoft]

theorem configAfter_append {ws vs : List Write} {k : Nat} (h : k ≤ ws.length) :
    configAfter (ws ++ vs) k = configAfter ws k := by
  rw [configAfter, configAfter, List.take_append_of_le_length h]

theorem sourced_resetState : Sourced [] [] resetState where
  pulsed := AxiLiteSlave.pulsed_resetState
  csr := rfl
  count := rfl
  values := rfl
  hold := by
    intro h
    cases h rfl

/-- An ADC edge touches nothing of the source side. -/
theorem Sourced.adc {ws : List Write} {regs : List (BitVec 202)} {s : State}
    (h : Sourced ws regs s) : Sourced ws regs (step s (.adc false)) where
  pulsed := h.pulsed
  csr := h.csr
  count := h.count
  values := h.values
  hold := h.hold

/-- At most one write is applied at an edge, and then its pulse is seen in the next cycle. -/
theorem length_configWrite (s : State) (ports : AxiLiteSlave.Ports) :
    (AxiLiteSlave.configWrite s.axi).length =
      (srcUpdate (step s (.axi false ports))).toNat := by
  rw [srcUpdate_eq (AxiLiteSlave.step_pulsed s.axi ports)]
  simp only [step, AxiLiteSlave.step_changed, AxiLiteSlave.configWrite]
  cases AxiLiteSlave.wrFire s.axi && (AxiLiteSlave.held s.axi).isConfig <;> rfl

theorem Sourced.axi {ws : List Write} {regs : List (BitVec 202)} {s : State}
    (h : Sourced ws regs s) (ports : AxiLiteSlave.Ports) :
    Sourced (ws ++ configWrites s (.axi false ports)) (regs ++ registered s (.axi false ports))
      (step s (.axi false ports)) := by
  have hcount := h.count
  have hfresh := length_configWrite s ports
  have hcsr : (step s (.axi false ports)).axi.csr.regs =
      Regs.reset.applyAll (ws ++ AxiLiteSlave.configWrite s.axi) := by
    rw [Regs.applyAll_append, ← h.csr]
    exact AxiLiteSlave.step_regs s.axi ports
  -- Earlier prefixes do not see the write that fires now.
  have hvalues : regs = (List.range regs.length).map
      (fun i => configAfter (ws ++ AxiLiteSlave.configWrite s.axi) (i + 1)) := by
    conv_lhs => rw [h.values]
    refine List.map_congr_left ?_
    intro i hi
    have := List.mem_range.1 hi
    exact (configAfter_append (by omega)).symm
  cases hup : srcUpdate s with
  | false =>
      simp only [configWrites, registered, hup, Bool.not_false, Bool.and_false, Bool.false_eq_true,
        if_false, List.append_nil]
      simp only [hup, Bool.toNat_false, Nat.add_zero] at hcount
      refine ⟨AxiLiteSlave.step_pulsed s.axi ports, hcsr, ?_, ?_, ?_⟩
      · simp [hcount, hfresh]
      · exact hvalues
      · intro hne
        rw [configAfter_append (by omega)]
        simpa [step, ConfigSync.srcEdge, hup] using h.hold hne
  | true =>
      simp only [configWrites, registered, hup, Bool.not_false, Bool.and_true, if_true,
        Bool.false_eq_true, if_false]
      simp only [hup, Bool.toNat_true] at hcount
      -- All writes but the one that fires now are in the registers that are being registered.
      have hnow : cfgCtrl s.axi.csr.regs =
          configAfter (ws ++ AxiLiteSlave.configWrite s.axi) (regs.length + 1) := by
        rw [configAfter_append (by omega), configAfter, List.take_of_length_le (by omega), h.csr]
      refine ⟨AxiLiteSlave.step_pulsed s.axi ports, hcsr, ?_, ?_, ?_⟩
      · simp [← hcount, hfresh]
      · rw [List.length_append, List.length_singleton, List.range_succ, List.map_append, ← hvalues,
          hnow]
        rfl
      · intro _
        simpa [step, ConfigSync.srcEdge, hup] using hnow

/-! ## The invariant of a run -/

/-- The toggle flops as counts.  `spaced` is where the handshake comes in: while an update has not
been sampled, the run ends in AXI edges only, one for each cycle since it was registered. -/
structure Staged (es : List Edge) (s : State) (p : Stages) : Prop where
  tracks : ConfigSync.Tracks s.sync p
  sent : p.sent = (registeredOf es).length
  begun : p.seen2 = (dstUpdatesOf es).count true
  loaded : p.seen3 = (loadsOf es).length
  settled : ∀ n, AdcEdgesSinceUpdate n es → p.Settled n
  spaced : p.seen1 < p.sent → ∃ tail, AxiTail tail es ∧ AxiLiteSlave.Aged tail.length s.axi

/-- Every loaded value is the configuration after a prefix of the writes, `last` being the latest
prefix; the `i`-th load already has the `i`-th write. -/
structure Loaded (ws : List Write) (ls : List (BitVec 202)) (sent : Nat) (data : BitVec 202)
    (ks : List Nat) (last : Nat) : Prop where
  values : ls = ks.map (configAfter ws)
  sorted : ks.Pairwise (· ≤ ·)
  le_last : ∀ k ∈ ks, k ≤ last
  length_le : ks.length ≤ last
  last_le : last ≤ sent
  data : ks ≠ [] → data = configAfter ws last

def Crossing (es : List Edge) : Prop :=
  Sourced (writesOf es) (registeredOf es) (run es) ∧
    (∃ p, Staged es (run es) p) ∧
    ∃ ks last, Loaded (writesOf es) (loadsOf es) (registeredOf es).length (run es).sync.dstData
      ks last

theorem Loaded.mono {ws vs : List Write} {ls : List (BitVec 202)} {sent sent' : Nat}
    {data : BitVec 202} {ks : List Nat} {last : Nat} (h : Loaded ws ls sent data ks last)
    (hws : sent ≤ ws.length) (hsent : sent ≤ sent') :
    Loaded (ws ++ vs) ls sent' data ks last where
  values := by
    rw [h.values]
    refine List.map_congr_left ?_
    intro k hk
    have hle := h.le_last k hk
    have hlast := h.last_le
    exact (configAfter_append (by omega)).symm
  sorted := h.sorted
  le_last := h.le_last
  length_le := h.length_le
  last_le := Nat.le_trans h.last_le hsent
  data := by
    intro hne
    have hlast := h.last_le
    rw [configAfter_append (by omega)]
    exact h.data hne

/-- A load takes what is held now, which no earlier load can have gone past. -/
theorem Loaded.load {ws : List Write} {ls : List (BitVec 202)} {sent : Nat}
    {data : BitVec 202} {ks : List Nat} {last : Nat} (h : Loaded ws ls sent data ks last)
    (hsent : ls.length < sent) :
    Loaded ws (ls ++ [configAfter ws sent]) sent (configAfter ws sent) (ks ++ [sent]) sent where
  values := by
    rw [h.values]
    simp
  sorted := by
    refine List.pairwise_append.2 ⟨h.sorted, List.pairwise_singleton _ _, ?_⟩
    intro k hk k' hk'
    rw [List.mem_singleton.1 hk']
    exact Nat.le_trans (h.le_last k hk) h.last_le
  le_last := by
    intro k hk
    rcases List.mem_append.1 hk with hk | hk
    · exact Nat.le_trans (h.le_last k hk) h.last_le
    · exact Nat.le_of_eq (List.mem_singleton.1 hk)
  length_le := by
    rw [h.values, List.length_map] at hsent
    rw [List.length_append, List.length_singleton]
    exact hsent
  last_le := Nat.le_refl sent
  data := by
    intro _
    rfl

theorem crossing_nil : Crossing [] := by
  refine ⟨sourced_resetState, ⟨Stages.zero, ?_⟩, [], 0, ?_⟩
  · refine ⟨ConfigSync.tracks_resetState, rfl, rfl, rfl, ?_, ?_⟩
    · intro n _
      exact ⟨fun _ => rfl, fun _ => rfl, fun _ => rfl⟩
    · intro h
      cases h
  · exact ⟨rfl, List.Pairwise.nil, by simp, Nat.le_refl 0, Nat.zero_le _, by simp⟩

theorem Crossing.adc {es : List Edge} (h : Crossing es) : Crossing (es ++ [.adc false]) := by
  rcases h with ⟨hsrc, ⟨p, hp⟩, ks, last, hloaded⟩
  -- `dst_update` before the edge decides the load, after the edge it opens a cycle.
  have hpulse := hp.tracks.dstUpdate_eq
  have hpulse' := hp.tracks.dstEdge.dstUpdate_eq
  have hbegun := p.sample.seen3_add_pulse
  have hended := p.seen3_add_pulse
  have hreg : registeredOf (es ++ [.adc false]) = registeredOf es := by
    simp [registeredOf_snoc, registered]
  have hwrites : writesOf (es ++ [.adc false]) = writesOf es := by
    simp [writesOf_snoc, configWrites]
  refine ⟨?_, ⟨p.sample, ?_⟩, ?_⟩
  · rw [hreg, hwrites, run_snoc]
    exact hsrc.adc
  · -- Every count moves one stage on.
    refine ⟨?_, ?_, ?_, ?_, ?_, ?_⟩
    · rw [run_snoc]
      exact hp.tracks.dstEdge
    · rw [hreg]
      exact hp.sent
    · rw [dstUpdatesOf_snoc, List.count_append, ← hp.begun]
      simp only [dstUpdates, hpulse']
      rw [← hbegun]
      cases p.sample.pulse <;> rfl
    · rw [loadsOf_snoc, List.length_append, ← hp.loaded]
      simp only [loads, hpulse]
      show p.seen2 = _
      rw [← hended]
      cases p.pulse <;> rfl
    · intro n hn
      cases n with
      | zero =>
          exact Stages.settled_zero _
      | succ n =>
          exact (hp.settled n (hn.of_snoc (by omega)).2).sample
    · intro hlt
      exact absurd hlt (Nat.lt_irrefl _)
  · rw [hreg, hwrites, run_snoc, loadsOf_snoc]
    cases hup : p.pulse with
    | false =>
        refine ⟨ks, last, ?_⟩
        simpa [loads, step, ConfigSync.dstEdge, hpulse, hup] using hloaded
    | true =>
        -- A pulse means an update that has been seen twice and not loaded yet.
        have hlt : (loadsOf es).length < (registeredOf es).length := by
          have h32 := p.pulse_iff.1 hup
          have h21 := p.lags2.1
          have h10 := p.lags1.1
          rw [← hp.loaded, ← hp.sent]
          omega
        have hne : registeredOf es ≠ [] := by
          intro hnil
          simp [hnil] at hlt
        refine ⟨ks ++ [(registeredOf es).length], (registeredOf es).length, ?_⟩
        simpa [loads, step, ConfigSync.dstEdge, hpulse, hup, hsrc.hold hne] using hloaded.load hlt

/-- An AXI edge without an update moves no count. -/
theorem Staged.axi_idle {es : List Edge} {p : Stages} (hp : Staged es (run es) p)
    (ports : AxiLiteSlave.Ports) (hup : srcUpdate (run es) = false) :
    Staged (es ++ [.axi false ports]) (run (es ++ [.axi false ports])) p where
  tracks := by
    rw [run_snoc]
    simpa [step, ConfigSync.srcEdge, hup] using hp.tracks
  sent := by
    simpa [registeredOf_snoc, registered, hup] using hp.sent
  begun := by
    simpa [dstUpdatesOf_snoc, dstUpdates] using hp.begun
  loaded := by
    simpa [loadsOf_snoc, loads] using hp.loaded
  settled := by
    intro n hn
    cases n with
    | zero =>
        exact Stages.settled_zero p
    | succ n =>
        exact hp.settled (n + 1) (hn.of_snoc (by omega)).2
  spaced := by
    intro hlt
    rcases hp.spaced hlt with ⟨tail, htail, haged⟩
    refine ⟨tail ++ [.axi false ports], htail.snoc false ports, ?_⟩
    rw [List.length_append, run_snoc]
    exact haged.succ ports

/-- When an update is registered the previous one has been sampled: else it would be three cycles
old at least, and the pace would have been missed. -/
theorem Staged.sampled {es : List Edge} {p : Stages} (hp : Staged es (run es) p)
    (hpulsed : AxiLiteSlave.Pulsed (run es).axi) {ports : AxiLiteSlave.Ports}
    (hpace : Paced (es ++ [.axi false ports])) (hup : srcUpdate (run es) = true) :
    p.seen1 = p.sent := by
  by_contra hne
  have hlt : p.seen1 < p.sent := Nat.lt_of_le_of_ne p.lags1.1 hne
  rcases hp.spaced hlt with ⟨tail, htail, haged⟩
  rw [srcUpdate_eq hpulsed] at hup
  -- Three AXI edges since the last update, and this one makes four in a row.
  have hold := haged.three_le hup
  have hshort := hpace.length_le (htail.snoc false ports)
  rw [List.length_append, List.length_singleton] at hshort
  omega

theorem Staged.axi_update {es : List Edge} {p : Stages} (hp : Staged es (run es) p)
    (hpulsed : AxiLiteSlave.Pulsed (run es).axi) (ports : AxiLiteSlave.Ports)
    (hup : srcUpdate (run es) = true) (hseen : p.seen1 = p.sent) :
    Staged (es ++ [.axi false ports]) (run (es ++ [.axi false ports])) (p.send hseen) where
  tracks := by
    rw [run_snoc]
    simpa [step, hup] using hp.tracks.srcEdge_update hseen (cfgCtrl (run es).axi.csr.regs)
  sent := by
    simp [registeredOf_snoc, registered, hup, Stages.send, hp.sent]
  begun := by
    simpa [dstUpdatesOf_snoc, dstUpdates, Stages.send] using hp.begun
  loaded := by
    simpa [loadsOf_snoc, loads, Stages.send] using hp.loaded
  settled := by
    intro n hn
    cases n with
    | zero =>
        exact Stages.settled_zero _
    | succ n =>
        -- No ADC edge has passed since this very update.
        have hnone := (hn.of_snoc (by omega)).1
        simp [registered, hup] at hnone
  spaced := by
    intro _
    refine ⟨[.axi false ports], ⟨⟨es, rfl⟩, by simp [Edge.isAdc]⟩, ?_⟩
    rw [run_snoc]
    exact hpulsed.aged_one (by rw [← srcUpdate_eq hpulsed, hup]) ports

theorem Crossing.axi {es : List Edge} (h : Crossing es) (ports : AxiLiteSlave.Ports)
    (hpace : Paced (es ++ [.axi false ports])) : Crossing (es ++ [.axi false ports]) := by
  rcases h with ⟨hsrc, ⟨p, hp⟩, ks, last, hloaded⟩
  have hcount := hsrc.count
  refine ⟨?_, ?_, ks, last, ?_⟩
  · rw [writesOf_snoc, registeredOf_snoc, run_snoc]
    exact hsrc.axi ports
  · cases hup : srcUpdate (run es) with
    | false =>
        exact ⟨p, hp.axi_idle ports hup⟩
    | true =>
        have hseen := hp.sampled hsrc.pulsed hpace hup
        exact ⟨p.send hseen, hp.axi_update hsrc.pulsed ports hup hseen⟩
  · -- An AXI edge loads nothing.
    have hdata : (run (es ++ [.axi false ports])).sync.dstData = (run es).sync.dstData := by
      rw [run_snoc]
      simp only [step, ConfigSync.srcEdge, Bool.false_eq_true, if_false]
      split <;> rfl
    have hloads : loadsOf (es ++ [.axi false ports]) = loadsOf es := by
      simp [loadsOf_snoc, loads]
    rw [hdata, hloads, writesOf_snoc, registeredOf_snoc]
    exact hloaded.mono (by omega) (by simp)

theorem crossing_of_paced (es : List Edge) (hreset : NoReset es) (hpace : Paced es) :
    Crossing es := by
  induction es using List.reverseRecOn with
  | nil =>
      exact crossing_nil
  | append_singleton es e ih =>
      have hcross := ih hreset.of_snoc.1 hpace.of_snoc
      have hrst := hreset.of_snoc.2
      cases e with
      | axi rst ports =>
          cases (hrst : rst = false)
          exact hcross.axi ports hpace
      | adc rst =>
          cases (hrst : rst = false)
          exact hcross.adc

/-! ## Delivery -/

/-- No update is lost or invented on the way to the ADC clock domain.

* The values registered are the configurations after each write in turn, but for the one write that
  may still be a cycle away from `src_hold`.
* ADC cycles with `dst_update` never outnumber the registered updates, and match them once three ADC
  edges have passed since the last one.
* Every value loaded is the configuration after a prefix of the registered writes, and the prefixes
  never go backwards.
* Once something was registered, three ADC edges have passed and no write is waiting for its edge,
  the ADC side has the current configuration. -/
theorem config_delivered (es : List Edge) (hreset : NoReset es) (hpace : Paced es) :
    ((registeredOf es).length + (srcUpdate (run es)).toNat = (writesOf es).length ∧
      registeredOf es =
        (List.range (registeredOf es).length).map (fun i => configAfter (writesOf es) (i + 1))) ∧
    (dstUpdatesOf es).count true ≤ (registeredOf es).length ∧
    (AdcEdgesSinceUpdate 3 es → (dstUpdatesOf es).count true = (registeredOf es).length) ∧
    (∃ ks : List Nat, ks.Pairwise (· ≤ ·) ∧ (∀ k ∈ ks, k ≤ (registeredOf es).length) ∧
      loadsOf es = ks.map (configAfter (writesOf es))) ∧
    (AdcEdgesSinceUpdate 3 es → registeredOf es ≠ [] → srcUpdate (run es) = false →
      (run es).sync.dstData = cfgCtrl (run es).axi.csr.regs) := by
  rcases crossing_of_paced es hreset hpace with ⟨hsrc, ⟨p, hp⟩, ks, last, hloaded⟩
  have h21 := p.lags2.1
  have h10 := p.lags1.1
  have hbegun := hp.begun
  have hsent := hp.sent
  refine ⟨⟨hsrc.count, hsrc.values⟩, by omega, ?_, ⟨ks, hloaded.sorted, ?_, hloaded.values⟩, ?_⟩
  · intro hedges
    have hall := (hp.settled 3 hedges).seen2_eq (Nat.le_refl 3)
    omega
  · intro k hk
    exact Nat.le_trans (hloaded.le_last k hk) hloaded.last_le
  · intro hedges hne hquiet
    -- Every update has been loaded, so the last load came after the last update.
    have hall := (hp.settled 3 hedges).seen3_eq (Nat.le_refl 3)
    have hpos : 0 < (registeredOf es).length := List.length_pos_iff.2 hne
    have hlen : ks.length = (registeredOf es).length := by
      rw [← hsent, ← hall, hp.loaded, hloaded.values, List.length_map]
    have hlast : last = (registeredOf es).length := by
      have hge := hloaded.length_le
      have hle := hloaded.last_le
      omega
    have hks : ks ≠ [] := by
      rw [← List.length_pos_iff, hlen]
      exact hpos
    have hcount := hsrc.count
    rw [hquiet, Bool.toNat_false, Nat.add_zero] at hcount
    calc
      (run es).sync.dstData = configAfter (writesOf es) last := hloaded.data hks
      _ = cfgCtrl (Regs.reset.applyAll (writesOf es)) := by
            rw [hlast, hcount, configAfter, List.take_length]
      _ = cfgCtrl (run es).axi.csr.regs := by
            rw [hsrc.csr]

/-! ### Two writes -/

/-- A master that offers nothing and accepts every response. -/
def idlePorts : AxiLiteSlave.Ports where
  awaddr := 0
  awvalid := false
  wdata := 0
  wstrb := 0
  wvalid := false
  bready := true
  araddr := 0
  arvalid := false
  rready := true
  status :=
    { adcLocked := true, adcOr := false, adcPeakAbs := 0, adcRmsPower := 0, adcOrCount := 0
      adcClipCount := 0, adcTimestamp := 0, adcDebugFlags := 0, adcDvalidCount := 0
      adcCfgUpdateCount := 0, ddc0SampleCount := 0, ddc0OverflowCount := 0 }

def writePorts (reg : Register) (data : BitVec 32) : AxiLiteSlave.Ports :=
  { idlePorts with
    awaddr := reg.addr.setWidth 32
    awvalid := true
    wdata := data
    wstrb := 0b1111#4
    wvalid := true }

/-- A write is offered and fires; its pulse follows one AXI edge later. -/
def fired (reg : Register) (data : BitVec 32) : List Edge :=
  [.axi false (writePorts reg data), .axi false idlePorts]

/-- FREQ_WORD is written, registered and delivered. -/
def oneWrite : List Edge :=
  fired .ddc0FreqWord 5 ++ [.axi false idlePorts, .adc false, .adc false, .adc false]

theorem config_delivered_oneWrite :
    NoReset oneWrite ∧ Paced oneWrite ∧ registeredOf oneWrite ≠ [] ∧
      (dstUpdatesOf oneWrite).count true = (registeredOf oneWrite).length ∧
      (run oneWrite).sync.dstData = cfgCtrl (run oneWrite).axi.csr.regs := by
  have hreset : NoReset oneWrite := by decide
  have hpace : Paced oneWrite := by decide
  have hedges : AdcEdgesSinceUpdate 3 oneWrite :=
    ⟨oneWrite.take 3, oneWrite.drop 3, rfl, rfl, by decide⟩
  have hne : registeredOf oneWrite ≠ [] := by decide
  have hall := config_delivered oneWrite hreset hpace
  exact ⟨hreset, hpace, hne, hall.2.2.1 hedges, hall.2.2.2.2 hedges hne rfl⟩

/-- Then CONTROL is written, and three ADC edges come before the next AXI edge. -/
def secondPending : List Edge :=
  oneWrite ++ fired .control 1 ++ [.adc false, .adc false, .adc false]

/-- The registers are one write ahead of `src_hold` in the cycle after a fire: the ADC edges of that
cycle, however many, cannot bring the new configuration across. -/
theorem not_current_while_pending :
    ¬ ∀ es, NoReset es → Paced es → AdcEdgesSinceUpdate 3 es → registeredOf es ≠ [] →
      (run es).sync.dstData = cfgCtrl (run es).axi.csr.regs := by
  intro h
  have hreset : NoReset secondPending := by decide
  have hpace : Paced secondPending := by decide
  have hedges : AdcEdgesSinceUpdate 3 secondPending :=
    ⟨secondPending.take 3, secondPending.drop 3, rfl, rfl, by decide⟩
  have hne : registeredOf secondPending ≠ [] := by decide
  have hdiffer : (run secondPending).sync.dstData ≠ cfgCtrl (run secondPending).axi.csr.regs := by
    decide
  exact hdiffer (h secondPending hreset hpace hedges hne)

end ConfigCrossing
end Fpga
end Sdr
