import Sdr.Fpga.SdrTop

/-!
# ControlReset — a reset of the control side alone

A reset of the AXI domain clears the registers, the held bus and the toggle of the configuration
crossing.  The ADC side hears of it only if the toggle moves: if the toggle was low already and nothing
was under way, the signal path goes on with the old configuration (`control_reset_stops_iff`).
-/

namespace Sdr
namespace Fpga
namespace ConfigCrossing

open Lib
open SdrTop (coreEnableAdc ddc0EnableAdc)

/-! ## Reset, release and what should hold then -/

/-- `ctrl_rst` is asserted and `adc_rst` is not. -/
def CtrlReset (es : List Edge) : Prop :=
  ∀ e ∈ es, e.rst = !e.isAdc

/-- No configuration write is applied while the edges `es` pass. -/
def NoWrite (s : State) (es : List Edge) : Prop :=
  emits step configWrites s es = []

instance (es : List Edge) : Decidable (CtrlReset es) :=
  inferInstanceAs (Decidable (∀ e ∈ es, e.rst = !e.isAdc))

instance (s : State) (es : List Edge) : Decidable (NoWrite s es) :=
  inferInstanceAs (Decidable (emits step configWrites s es = []))

/-- The enables in the ADC domain are those of the registers, and both are low. -/
structure Stopped (s : State) : Prop where
  core : coreEnableAdc s.sync.dstData = s.axi.csr.regs.coreEnable
  ddc0 : ddc0EnableAdc s.sync.dstData = s.axi.csr.regs.ddc0Enable
  core_low : s.axi.csr.regs.coreEnable = false
  ddc0_low : s.axi.csr.regs.ddc0Enable = false

/-- One of the toggle flops of the ADC side is high, or the enables are low anyway. -/
def Notices (s : ConfigSync.State 202) : Prop :=
  (s.dstMeta = true ∨ s.dstSync = true ∨ s.dstSyncD = true) ∨
    (coreEnableAdc s.dstData = false ∧ ddc0EnableAdc s.dstData = false)

/-! ## The source side stays cleared -/

structure Cleared (s : State) : Prop where
  hold : s.sync.srcHold = 0
  toggle : s.sync.srcToggle = false
  regs : s.axi.csr.regs = CsrRegfile.Regs.reset
  quiet : srcUpdate s = false

theorem cleared_reset (s : State) (ports : AxiLiteSlave.Ports) :
    Cleared (step s (.axi true ports)) := by
  constructor <;> rfl

theorem Cleared.adc {s : State} (h : Cleared s) : Cleared (step s (.adc false)) where
  hold := h.hold
  toggle := h.toggle
  regs := h.regs
  quiet := h.quiet

theorem Cleared.axi {s : State} (h : Cleared s) {ports : AxiLiteSlave.Ports}
    (hwrite : configWrites s (.axi false ports) = []) :
    Cleared (step s (.axi false ports)) ∧ (step s (.axi false ports)).sync = s.sync := by
  have hsync : (step s (.axi false ports)).sync = s.sync := by
    simp [step, ConfigSync.srcEdge, h.quiet]
  have hnone : AxiLiteSlave.configWrite s.axi = [] := hwrite
  refine ⟨⟨?_, ?_, ?_, ?_⟩, hsync⟩
  · rw [hsync]
    exact h.hold
  · rw [hsync]
    exact h.toggle
  · have hregs : (step s (.axi false ports)).axi.csr.regs = _ := AxiLiteSlave.step_regs s.axi ports
    rw [hregs, hnone]
    exact h.regs
  · -- A pulse would follow a write.
    have hlength := length_configWrite s ports
    rw [hnone] at hlength
    exact Bool.toNat_eq_zero.1 hlength.symm

theorem Cleared.reset {s : State} (h : Cleared s) (ports : AxiLiteSlave.Ports) :
    (step s (.axi true ports)).sync = s.sync := by
  have hhold := h.hold
  have htoggle := h.toggle
  rcases s with ⟨axi, ⟨srcHold, srcToggle, dstMeta, dstSync, dstSyncD, dstData⟩⟩
  cases hhold
  cases htoggle
  rfl

/-- An edge of the ADC clock with the reset low. -/
def clocked (x : ConfigSync.State 202) : ConfigSync.State 202 :=
  ConfigSync.dstEdge x false

/-- The edges of a reset clock the ADC side and do nothing else. -/
theorem cleared_ctrlReset {s : State} (h : Cleared s) {es : List Edge} (hes : CtrlReset es) :
    Cleared (runFrom step s es) ∧
      (runFrom step s es).sync = clocked^[es.countP Edge.isAdc] s.sync := by
  induction es generalizing s with
  | nil => exact ⟨h, rfl⟩
  | cons e es ih =>
      have he := hes e (by simp)
      have hes' : CtrlReset es := fun e' he' => hes e' (by simp [he'])
      cases e with
      | axi rst ports =>
          cases (he : rst = true)
          rw [runFrom_cons, List.countP_cons_of_neg (by simp [Edge.isAdc]), ← h.reset ports]
          exact ih (cleared_reset s ports) hes'
      | adc rst =>
          cases (he : rst = false)
          rw [runFrom_cons, List.countP_cons_of_pos (by simp [Edge.isAdc])]
          exact ih h.adc hes'

/-- So do edges out of reset that write nothing. -/
theorem cleared_noWrite {s : State} (h : Cleared s) {es : List Edge} (hes : NoReset es)
    (hwrite : NoWrite s es) :
    Cleared (runFrom step s es) ∧
      (runFrom step s es).sync = clocked^[es.countP Edge.isAdc] s.sync := by
  induction es generalizing s with
  | nil => exact ⟨h, rfl⟩
  | cons e es ih =>
      have he := hes e (by simp)
      have hes' : NoReset es := fun e' he' => hes e' (by simp [he'])
      rcases List.append_eq_nil_iff.1 hwrite with ⟨hnow, hlater⟩
      cases e with
      | axi rst ports =>
          cases (he : rst = false)
          rcases h.axi hnow with ⟨hcleared, hsync⟩
          rw [runFrom_cons, List.countP_cons_of_neg (by simp [Edge.isAdc]), ← hsync]
          exact ih hcleared hes' hlater
      | adc rst =>
          cases (he : rst = false)
          rw [runFrom_cons, List.countP_cons_of_pos (by simp [Edge.isAdc])]
          exact ih h.adc hes' hlater

/-! ## The ADC side -/

/-- What the ADC side comes to when nothing moves on the source side. -/
def settled (x : ConfigSync.State 202) : ConfigSync.State 202 :=
  { x with
    dstMeta := false
    dstSync := false
    dstSyncD := false
    dstData := if x.dstMeta || x.dstSync || x.dstSyncD then 0 else x.dstData }

section Settled

variable {x : ConfigSync.State 202}

/-- Whichever flop is high, its falling edge passes the last two flops within three edges. -/
theorem clocked_three (hhold : x.srcHold = 0) (htoggle : x.srcToggle = false) :
    clocked (clocked (clocked x)) = settled x := by
  rcases x with ⟨srcHold, srcToggle, dstMeta, dstSync, dstSyncD, dstData⟩
  cases hhold
  cases htoggle
  cases dstMeta <;> cases dstSync <;> cases dstSyncD <;> rfl

theorem clocked_settled (htoggle : x.srcToggle = false) : clocked (settled x) = settled x := by
  rcases x with ⟨srcHold, srcToggle, dstMeta, dstSync, dstSyncD, dstData⟩
  cases htoggle
  rfl

theorem clocked_iterate (hhold : x.srcHold = 0) (htoggle : x.srcToggle = false) {n : Nat}
    (hn : 3 ≤ n) : clocked^[n] x = settled x := by
  induction n, hn using Nat.le_induction with
  | base => exact clocked_three hhold htoggle
  | succ n _ ih => rw [Function.iterate_succ_apply', ih, clocked_settled htoggle]

end Settled

/-- The enables go low exactly if a flop was high or they were low. -/
theorem enables_settled (x : ConfigSync.State 202) :
    (coreEnableAdc (settled x).dstData = false ∧ ddc0EnableAdc (settled x).dstData = false) ↔
      Notices x := by
  unfold Notices settled
  have hzero : coreEnableAdc 0#202 = false ∧ ddc0EnableAdc 0#202 = false := by decide
  cases x.dstMeta <;> cases x.dstSync <;> cases x.dstSyncD <;> simp [hzero]

/-- Three ADC edges after a reset of the control side the signal path is stopped if and only if one of
its toggle flops was high when the reset came, or it was stopped already. -/
theorem control_reset_stops_iff (before : List Edge) (ports : AxiLiteSlave.Ports)
    (during after : List Edge) (hduring : CtrlReset during) (hafter : NoReset after)
    (hwrite : NoWrite (run (before ++ .axi true ports :: during)) after)
    (hedges : 3 ≤ after.countP Edge.isAdc) :
    Stopped (run (before ++ .axi true ports :: during ++ after)) ↔ Notices (run before).sync := by
  have hrun : run (before ++ .axi true ports :: during) =
      runFrom step (step (run before) (.axi true ports)) during := by
    rw [run_append, runFrom_cons]
  rcases cleared_ctrlReset (cleared_reset (run before) ports) hduring with ⟨hcleared, hsync⟩
  rw [← hrun] at hcleared hsync
  rcases cleared_noWrite hcleared hafter hwrite with ⟨hcleared', hsync'⟩
  rw [← run_append] at hcleared' hsync'
  -- The ADC edges of the reset and those after it are one sequence.
  have hdst : (run (before ++ .axi true ports :: during ++ after)).sync =
      settled (step (run before) (.axi true ports)).sync := by
    rw [hsync', hsync, ← Function.iterate_add_apply]
    exact clocked_iterate rfl rfl (by omega)
  have henables := enables_settled (step (run before) (.axi true ports)).sync
  rw [← hdst] at henables
  have hlow : CsrRegfile.Regs.reset.coreEnable = false ∧ CsrRegfile.Regs.reset.ddc0Enable = false := by
    decide
  rw [← hcleared'.regs] at hlow
  have hstopped : Stopped (run (before ++ .axi true ports :: during ++ after)) ↔
      coreEnableAdc (run (before ++ .axi true ports :: during ++ after)).sync.dstData = false ∧
        ddc0EnableAdc (run (before ++ .axi true ports :: during ++ after)).sync.dstData = false := by
    constructor
    · intro h
      exact ⟨h.core.trans h.core_low, h.ddc0.trans h.ddc0_low⟩
    · intro h
      exact ⟨h.1.trans hlow.1.symm, h.2.trans hlow.2.symm, hlow.1, hlow.2⟩
  exact hstopped.trans henables

/-! ### One update and two -/

/-- A register is written and its update delivered. -/
def delivered (reg : CsrRegfile.Register) (data : BitVec 32) : List Edge :=
  fired reg data ++ [.axi false idlePorts, .adc false, .adc false, .adc false]

def threeAdcEdges : List Edge :=
  [.axi false idlePorts, .adc false, .adc false, .adc false]

/-- After one update the toggle is high, and its fall tells the ADC side. -/
theorem control_reset_stops_oneUpdate :
    coreEnableAdc (run (delivered .control 1)).sync.dstData = true ∧
      Stopped (run (delivered .control 1 ++ .axi true idlePorts :: [] ++ threeAdcEdges)) := by
  refine ⟨by decide, ?_⟩
  refine (control_reset_stops_iff (delivered .control 1) idlePorts [] threeAdcEdges (by decide)
    (by decide) (by decide) (by decide)).2 ?_
  exact .inl (.inl (by decide))

/-- After two updates it is low again, and the stream goes on. -/
theorem not_stopped_twoUpdates :
    ¬ ∀ (before : List Edge) (ports : AxiLiteSlave.Ports) (during after : List Edge),
      NoReset before → CtrlReset during → NoReset after →
        NoWrite (run (before ++ .axi true ports :: during)) after → 3 ≤ after.countP Edge.isAdc →
          Stopped (run (before ++ .axi true ports :: during ++ after)) := by
  intro h
  have hstopped := h (delivered .control 1 ++ delivered .ddc0Control 1) idlePorts [] threeAdcEdges
    (by decide) (by decide) (by decide) (by decide) (by decide)
  have hcore := hstopped.core.trans hstopped.core_low
  revert hcore
  decide

end ConfigCrossing
end Fpga
end Sdr
