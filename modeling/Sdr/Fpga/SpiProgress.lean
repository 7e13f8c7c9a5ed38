import Sdr.Fpga.SpiSequence

/-!
# SpiProgress — the configuration comes to an end

The master moves on with every sixteenth cycle, and a frame takes at most 52 such ticks.  So a rank over
the words still to come, the word that waits for the master, the ticks of the frame and the cycles of the
controller goes down with every cycle in which nothing is asked, until nothing is left to do
(`rank_step`).
-/

namespace Sdr
namespace Fpga

/-! ## The master -/

namespace SpiMaster

/-- The ticks until chip select is released. -/
def ticks (s : State) : Nat :=
  match s.state with
  | .idle | .rdAd | .rdDa => 0
  | .wait => 52 - s.waitCnt.toNat
  | .wrAd => 2 * (24 - s.addrCnt.toNat) + 1 - (s.sclk ^^ s.sclk2x).toNat
  | .wrDa => 2 * (8 - s.dataCnt.toNat) + 1 - (s.sclk ^^ s.sclk2x).toNat
  | .done => 1

/-- The cycles until the next tick. -/
def untilTick (s : State) : Nat :=
  if s.sclk2x then 0 else 16 - s.divCnt.toNat

def left (s : State) : Nat :=
  if s.state = .idle then 0 else 17 * ticks s + untilTick s

section Left

variable {w : BitVec 24} {s : State} {p : Ports} {n : Nat}

/-- The count of the ticks before a frame stops at two. -/
theorem waitCnt_step (h : s.waitCnt.toNat ≤ 2) (p : Ports) : (step s p).waitCnt.toNat ≤ 2 := by
  cases hstate : s.state with
  | idle =>
      simp only [step, sequencer, hstate]
      split_ifs <;> simp
  | wait =>
      by_cases hlast : s.waitCnt = 2
      · simp only [step, sequencer, hstate, hlast, shiftAddr]
        split_ifs <;> simp_all
      · have hsucc : (s.waitCnt + 1).toNat ≤ 2 := by bv_omega
        simp only [step, sequencer, hstate, beq_iff_eq, hlast, if_false]
        split_ifs <;> assumption
  | _ =>
      simp only [step, sequencer, hstate, shiftAddr, shiftData, shiftOut]
      split_ifs <;> exact h

theorem untilTick_step (hc : Clocked s) (hen : s.en = true) (p : Ports) :
    untilTick (step s p) = if s.sclk2x then 15 else untilTick s - 1 := by
  have hdiv := hc.divCnt
  cases htick : s.sclk2x with
  | true =>
      simp [untilTick, step, hen, lastDiv, hc.sclk2x htick]
  | false =>
      by_cases hlast : s.divCnt = 15
      · simp [untilTick, step, hen, lastDiv, hlast, htick]
      · have hsucc : (s.divCnt + 1).toNat = s.divCnt.toNat + 1 := by bv_omega
        simp only [untilTick, step, hen, lastDiv, htick, Bool.true_and,
          beq_eq_false_iff_ne.2 hlast, if_true, if_false, Bool.false_eq_true, hsucc]
        omega

theorem ticks_pos (h : Sends w s n) (hwait : s.waitCnt.toNat ≤ 2) : 0 < ticks s := by
  have hbit : (s.sclk ^^ s.sclk2x).toNat ≤ 1 := Bool.toNat_le _
  cases h with
  | wait hstate =>
      simp only [ticks, hstate]
      omega
  | wrAd k hk hstate _ _ _ _ haddrCnt =>
      have hcnt : s.addrCnt.toNat = k := by
        rw [haddrCnt]
        exact Nat.mod_eq_of_lt (by omega)
      simp only [ticks, hstate, hcnt]
      omega
  | wrDa k hk hstate _ _ _ _ hdataCnt =>
      have hcnt : s.dataCnt.toNat = k := by
        rw [hdataCnt]
        exact Nat.mod_eq_of_lt (by omega)
      simp only [ticks, hstate, hcnt]
      omega
  | done hstate =>
      simp [ticks, hstate]

/-- Only a tick takes the frame on. -/
theorem ticks_step_of_quiet (hc : Clocked s) (h : Sends w s n) (htick : s.sclk2x = false) (p : Ports) :
    ticks (step s p) = ticks s := by
  have hen : s.en = true := hc.en h.ne_idle
  have hxor : s.state.shifts = true →
      ((step s p).sclk ^^ (step s p).sclk2x) = (s.sclk ^^ s.sclk2x) := by
    intro hshifts
    simp only [step_sclk, step_sclk2x, toggles, hshifts, hen, htick]
    cases s.sclk <;> cases lastDiv s <;> rfl
  cases h with
  | wait hstate =>
      have hkeep : (step s p).state = .wait ∧ (step s p).waitCnt = s.waitCnt := by
        simp [step, sequencer, hstate, htick]
      simp only [ticks, hstate, hkeep]
  | wrAd k hk hstate =>
      have hkeep : (step s p).state = .wrAd ∧ (step s p).addrCnt = s.addrCnt := by
        simp [step, sequencer, hstate, htick]
      simp only [ticks, hstate, hkeep, hxor (by rw [hstate]; rfl)]
  | wrDa k hk hstate =>
      have hkeep : (step s p).state = .wrDa ∧ (step s p).dataCnt = s.dataCnt := by
        simp [step, sequencer, hstate, htick]
      simp only [ticks, hstate, hkeep, hxor (by rw [hstate]; rfl)]
  | done hstate =>
      have hkeep : (step s p).state = .done := by
        simp [step, sequencer, hstate, htick]
      simp only [ticks, hstate, hkeep]

theorem ticks_step_of_tick (hc : Clocked s) (h : Sends w s n) (htick : s.sclk2x = true)
    (hwait : s.waitCnt.toNat ≤ 2) (hreq : s.state = .wait → p.wrReq = true) :
    ticks (step s p) + 1 = ticks s := by
  have heven := hc.evenEdges_eq
  have hsclk : (step s p).sclk = s.sclk := by
    rw [step_sclk, hc.not_toggles htick, Bool.xor_false]
  have hsclk2x : (step s p).sclk2x = false := by
    simp [lastDiv, hc.sclk2x htick]
  cases h with
  | wait hstate _ _ _ haddrCnt =>
      have hlow : s.sclk = false := hc.low (by rw [hstate]; rfl)
      by_cases hlast : s.waitCnt = 2
      · have hnext : (step s p).state = .wrAd ∧ (step s p).addrCnt = 0 := by
          simp [step, sequencer, hstate, htick, hlast, hreq hstate, shiftAddr, haddrCnt]
        simp [ticks, hstate, hnext, hsclk, hsclk2x, hlow, hlast, -step_sclk, -step_sclk2x]
      · have hmore : (s.waitCnt == 2) = false := beq_eq_false_iff_ne.2 hlast
        have hnext : (step s p).state = .wait ∧ (step s p).waitCnt = s.waitCnt + 1 := by
          simp only [step, sequencer, hstate, htick, hmore, if_true, if_false, Bool.false_eq_true,
            and_self]
        have hsucc : (s.waitCnt + 1).toNat = s.waitCnt.toNat + 1 := by bv_omega
        simp only [ticks, hstate, hnext, hsucc]
        omega
  | wrAd k hk hstate _ _ _ _ haddrCnt =>
      have hcnt : s.addrCnt.toNat = k := by
        rw [haddrCnt]
        exact Nat.mod_eq_of_lt (by omega)
      cases hlevel : s.sclk with
      | true =>
          have hkeep := sequencer_high (p := p) hc (by rw [hstate]; rfl) hlevel
          have hnext : (step s p).state = .wrAd ∧ (step s p).addrCnt = s.addrCnt := by
            simp only [step, hkeep, hstate, and_self]
          simp only [ticks, hstate, hnext, hsclk, hsclk2x, hlevel, htick, hcnt, Bool.xor_true,
            Bool.xor_false, Bool.not_true, Bool.toNat_true, Bool.toNat_false]
          omega
      | false =>
          have hgo : (s.sclk2x && evenEdges s) = true := by
            rw [htick, heven, hlevel]
            rfl
          by_cases hlast : k < 15
          · have hlt : s.addrCnt < 15 := by bv_omega
            have hnext : (step s p).state = .wrAd ∧ (step s p).addrCnt = s.addrCnt + 1 := by
              simp only [step, sequencer, hstate, hgo, hlt, shiftAddr, if_true, and_self]
            have hsucc : (s.addrCnt + 1).toNat = k + 1 := by bv_omega
            simp only [ticks, hstate, hnext, hsclk, hsclk2x, hlevel, htick, hcnt, hsucc,
              Bool.xor_true, Bool.xor_false, Bool.not_false, Bool.toNat_true, Bool.toNat_false]
            omega
          · have hge : ¬s.addrCnt < 15 := by bv_omega
            have hnext : (step s p).state = .wrDa ∧ (step s p).dataCnt = s.dataCnt := by
              simp only [step, sequencer, hstate, hgo, hge, shiftData, if_true, if_false, and_self]
            have hzero : s.dataCnt.toNat = 0 := by simp_all
            simp only [ticks, hstate, hnext, hsclk, hsclk2x, hlevel, htick, hcnt, hzero,
              Bool.xor_true, Bool.xor_false, Bool.not_false, Bool.toNat_true, Bool.toNat_false]
            omega
  | wrDa k hk hstate _ _ _ _ hdataCnt =>
      have hcnt : s.dataCnt.toNat = k := by
        rw [hdataCnt]
        exact Nat.mod_eq_of_lt (by omega)
      cases hlevel : s.sclk with
      | true =>
          have hkeep := sequencer_high (p := p) hc (by rw [hstate]; rfl) hlevel
          have hnext : (step s p).state = .wrDa ∧ (step s p).dataCnt = s.dataCnt := by
            simp only [step, hkeep, hstate, and_self]
          simp only [ticks, hstate, hnext, hsclk, hsclk2x, hlevel, htick, hcnt, Bool.xor_true,
            Bool.xor_false, Bool.not_true, Bool.toNat_true, Bool.toNat_false]
          omega
      | false =>
          have hgo : (s.sclk2x && evenEdges s) = true := by
            rw [htick, heven, hlevel]
            rfl
          by_cases hlast : k < 7
          · have hlt : s.dataCnt < 7 := by bv_omega
            have hnext : (step s p).state = .wrDa ∧ (step s p).dataCnt = s.dataCnt + 1 := by
              simp only [step, sequencer, hstate, hgo, hlt, shiftData, if_true, and_self]
            have hsucc : (s.dataCnt + 1).toNat = k + 1 := by bv_omega
            simp only [ticks, hstate, hnext, hsclk, hsclk2x, hlevel, htick, hcnt, hsucc,
              Bool.xor_true, Bool.xor_false, Bool.not_false, Bool.toNat_true, Bool.toNat_false]
            omega
          · have hge : ¬s.dataCnt < 7 := by bv_omega
            have hnext : (step s p).state = .done := by
              simp only [step, sequencer, hstate, hgo, hge, if_true, if_false]
            simp only [ticks, hstate, hnext, hlevel, htick, hcnt, Bool.xor_true, Bool.not_false,
              Bool.toNat_true]
            omega
  | done hstate =>
      have hnext : (step s p).state = .idle := by
        simp [step, sequencer, hstate, htick]
      simp [ticks, hstate, hnext]

/-- Every cycle takes the frame closer to its end. -/
theorem left_step (hc : Clocked s) (h : Sends w s n) (hwait : s.waitCnt.toNat ≤ 2)
    (hreq : s.state = .wait → p.wrReq = true) : left (step s p) < left s := by
  have hen : s.en = true := hc.en h.ne_idle
  have huntil := untilTick_step hc hen p
  have hle : left (step s p) ≤ 17 * ticks (step s p) + untilTick (step s p) := by
    rw [left]
    split_ifs <;> omega
  have hnow : left s = 17 * ticks s + untilTick s := by
    rw [left, if_neg h.ne_idle]
  cases htick : s.sclk2x with
  | true =>
      have hticks := ticks_step_of_tick hc h htick hwait hreq
      rw [htick, if_pos rfl] at huntil
      omega
  | false =>
      have hticks := ticks_step_of_quiet hc h htick p
      have hdiv := hc.divCnt
      have hpos : 0 < untilTick s := by
        rw [untilTick, htick, if_neg (by decide)]
        bv_omega
      rw [htick, if_neg (by decide)] at huntil
      omega

theorem left_le (s : State) : left s ≤ 900 := by
  have hticks : ticks s ≤ 52 := by
    simp only [ticks]
    split <;> omega
  simp only [left, untilTick]
  split_ifs <;> omega

theorem left_pos (h : Sends w s n) (hwait : s.waitCnt.toNat ≤ 2) : 0 < left s := by
  have hticks := ticks_pos h hwait
  rw [left, if_neg h.ne_idle]
  omega

end Left

end SpiMaster

/-! ## The controller -/

namespace SpiConfig

open Lib
open LutConfig (table transfer)
open SpiMaster (Clocked Sends)

/-- The cycles of the controller, apart from those in which it waits for the master. -/
def pause (s : State) : Nat :=
  match s.ctrl.state with
  | .wrAddr => 13
  | .wrData => 12
  | .done => 11
  | .wait => 10 - s.ctrl.waitCnt.toNat
  | .wrRd => 1
  | .idle =>
      if s.ctrl.valid then
        2
      else if s.lut.valid then
        3
      else if s.lut.confState = 2 then
        0
      else
        5 - s.lut.confState.toNat
  | .rdAddr | .rdData => 0

section Pause

variable {s : State} {i : Inputs} {rs : List (BitVec 24 × Fate)} {ws : List (BitVec 24)} {n : Nat}

/-- A controller that has nothing to do, because it has not begun or because all is done. -/
theorem Stage.dormant (h : Stage s rs ws n) (hctrl : s.ctrl.valid = false)
    (hlut : s.lut.valid = false) :
    (s.lut.confState = 0 ∨ (s.lut.confState = 1 ∧ s.lut.state = 0)) ∨
      (s.lut.confState = 2 ∧ n = 0) := by
  cases h with
  | boot conf hconf h hstate =>
      left
      rcases hconf with rfl | rfl
      · exact .inl h.confState
      · exact .inr ⟨h.confState, hstate⟩
  | quiet spot hspot h => exact .inr ⟨h.confState, rfl⟩
  | first h => simp [h.lutValid] at hlut
  | entry k spot hspot h => simp [h.lutValid] at hlut
  | entrySent k spot hspot h => simp [h.lutValid] at hlut
  | entryNext k h => simp [h.lutValid] at hlut
  | entryReady k h => simp [h.lutValid] at hlut
  | last spot hspot h => simp [h.ctrlValid] at hctrl
  | lastSent spot hspot h => simp [h.ctrlValid] at hctrl
  | asked spot hspot valid h => simp [h.lutValid] at hlut
  | askedCommits h => simp [h.lutValid] at hlut
  | askedSent spot hspot h => simp [h.lutValid] at hlut
  | closing h => simp [h.lutValid] at hlut
  | closingHeld spot hspot h => simp [h.ctrlValid] at hctrl
  | closingSent spot hspot h => simp [h.ctrlValid] at hctrl

theorem Stage.exists_at (h : Stage s rs ws n) : ∃ spot, At s.ctrl spot := by
  cases h <;> exact ⟨_, Shows.spot ‹_›⟩

theorem pause_idle_le (hidle : s.ctrl.state = .idle) : pause s ≤ 5 := by
  simp only [pause, hidle]
  split_ifs <;> omega

/-- An idle controller with something to do comes closer to it. -/
theorem pause_idle (h : Stage s rs ws n) (hidle : s.ctrl.state = .idle)
    (hnone : asked s i = []) :
    pause (step s i) < pause s ∨ (n = 0 ∧ pause (step s i) = 0 ∧ pause s = 0) := by
  cases hctrl : s.ctrl.valid with
  | true =>
      left
      have hnext : (step s i).ctrl.state = .wrRd := by
        simp [step, SpiCtrl.step, SpiCtrl.sequencer, hidle, hctrl]
      simp [pause, hidle, hnext, hctrl]
  | false =>
      have hnext : (step s i).ctrl.state = .idle := by
        simp [step, SpiCtrl.step, SpiCtrl.sequencer, hidle, hctrl]
      cases hlut : s.lut.valid with
      | true =>
          left
          have hvalid : (step s i).ctrl.valid = true := by
            simp [step, SpiCtrl.step, ctrlPorts, hlut]
          simp [pause, hidle, hnext, hctrl, hlut, hvalid]
      | false =>
          have hvalid : (step s i).ctrl.valid = false := by
            simp [step, SpiCtrl.step, ctrlPorts, hlut, hctrl]
          rcases h.dormant hctrl hlut with (hconf | ⟨hconf, hstate⟩) | ⟨hconf, hn⟩
          · left
            obtain ⟨hconf', hlut'⟩ := lut_boots (i := i) hconf
            simp [pause, hidle, hnext, hctrl, hlut, hvalid, hconf, hconf', hlut']
          · left
            obtain ⟨w, hw⟩ : ∃ w, table[0]? = some w := ⟨_, rfl⟩
            obtain ⟨hconf', hlut', -⟩ := lut_shows (i := i) hconf hstate hw
            simp [pause, hidle, hnext, hctrl, hlut, hvalid, hconf, hlut']
          · right
            have hen : s.lut.confEnReg = false := by
              simpa [asked, requested, hconf] using hnone
            obtain ⟨hconf', hlut', -⟩ := lut_waits hconf hen i
            refine ⟨hn, ?_, ?_⟩ <;> simp [pause, hidle, hnext, hctrl, hlut, hvalid, hconf, hconf', hlut']

/-- What a cycle without a request does to the controller. -/
inductive PauseStep (s : State) (i : Inputs) (n : Nat) : Prop
  | commits (hcommit : (committed s i).length = 1) (hstate : s.ctrl.state = .wrRd)
      (hle : pause (step s i) ≤ pause s + 12)
  | counts (hcommit : committed s i = []) (hlt : pause (step s i) < pause s)
  | waits (hcommit : committed s i = []) (hstate : s.ctrl.state = .wrData)
      (heq : pause (step s i) = pause s)
  | rests (hcommit : committed s i = []) (hstate : s.ctrl.state = .idle) (hn : n = 0)
      (hzero : pause s = 0) (hzero' : pause (step s i) = 0)

theorem pauseStep (hw : Handshake s) (h : Stage s rs ws n) (hnone : asked s i = []) :
    PauseStep s i n := by
  obtain ⟨spot, hat⟩ := h.exists_at
  have hquiet : s.ctrl.state ≠ .wrRd → committed s i = [] := by
    intro hne
    simp [committed, hne]
  cases hstate : s.ctrl.state with
  | idle =>
      have hcommit := hquiet (by simp [hstate])
      rcases pause_idle (i := i) h hstate hnone with hlt | ⟨hn, hzero', hzero⟩
      · exact .counts hcommit hlt
      · exact .rests hcommit hstate hn hzero hzero'
  | wrRd =>
      have hnext : (step s i).ctrl.state = .wrAddr := by
        simp [step, SpiCtrl.step, SpiCtrl.sequencer, ctrlPorts, hstate, hw.wrRdEn]
      refine .commits (by simp [committed, hstate]) hstate ?_
      simp [pause, hstate, hnext]
  | wrAddr =>
      have hnext : (step s i).ctrl.state = .wrData := by
        simp [step, SpiCtrl.step, SpiCtrl.sequencer, hstate]
      refine .counts (hquiet (by simp [hstate])) ?_
      simp [pause, hstate, hnext]
  | wrData =>
      have hcommit := hquiet (by simp [hstate])
      cases hack : s.master.ack with
      | false =>
          have hnext : (step s i).ctrl.state = .wrData := by
            simp [step, SpiCtrl.step, SpiCtrl.sequencer, ctrlPorts, hstate, hack]
          exact .waits hcommit hstate (by simp [pause, hstate, hnext])
      | true =>
          have hnext : (step s i).ctrl.state = .done := by
            simp [step, SpiCtrl.step, SpiCtrl.sequencer, ctrlPorts, hstate, hack]
          exact .counts hcommit (by simp [pause, hstate, hnext])
  | rdAddr => exact absurd hstate hw.writes.1
  | rdData => exact absurd hstate hw.writes.2
  | done =>
      have hnext : (step s i).ctrl.state = .wait ∧ (step s i).ctrl.waitCnt = s.ctrl.waitCnt := by
        simp [step, SpiCtrl.step, SpiCtrl.sequencer, hstate]
      refine .counts (hquiet (by simp [hstate])) ?_
      simp only [pause, hstate, hnext]
      omega
  | wait =>
      refine .counts (hquiet (by simp [hstate])) ?_
      have hcnt : s.ctrl.waitCnt = 0 ∨ s.ctrl.waitCnt = 1 ∨ s.ctrl.waitCnt = 2 := by
        cases spot <;> simp_all [At]
      rcases hcnt with hcnt | hcnt | hcnt
      · have hnext : (step s i).ctrl.state = .wait ∧ (step s i).ctrl.waitCnt = 1 := by
          simp [step, SpiCtrl.step, SpiCtrl.sequencer, hstate, hcnt]
        simp [pause, hstate, hnext, hcnt]
      · have hnext : (step s i).ctrl.state = .wait ∧ (step s i).ctrl.waitCnt = 2 := by
          simp [step, SpiCtrl.step, SpiCtrl.sequencer, hstate, hcnt]
        simp [pause, hstate, hnext, hcnt]
      · have hnext : (step s i).ctrl.state = .idle := by
          simp [step, SpiCtrl.step, SpiCtrl.sequencer, hstate, hcnt]
        have hle := pause_idle_le hnext
        have hnow : pause s = 8 := by simp [pause, hstate, hcnt]
        omega

end Pause

/-! ## Both together -/

/-- What is left to do, in cycles. -/
def rank (s : State) (n : Nat) : Nat :=
  2000 * n + 1000 * (queued s).length + SpiMaster.left s.master + pause s

section Rank

variable {b : Bus} {i : Inputs} {words ws : List (BitVec 24)} {rs : List (BitVec 24 × Fate)}
  {frames : List (List (Option Bool))} {n : Nat}

/-- The master comes closer to the end of its frame, starts on a word, or rests. -/
theorem left_step (hf : Framed words frames b) (hwait : b.fpga.master.waitCnt.toNat ≤ 2)
    (i : Inputs) :
    SpiMaster.left (step b.fpga i).master < SpiMaster.left b.fpga.master ∨
      (b.fpga.master.state = .idle ∧ b.fpga.ctrl.wrReq = true ∧
        SpiMaster.left (step b.fpga i).master ≤ 900) ∨
      (b.fpga.master.state = .idle ∧ b.fpga.ctrl.wrReq = false ∧
        SpiMaster.left (step b.fpga i).master = 0) := by
  obtain ⟨sent, flight, -, -, hflight⟩ := hf.words
  cases hflight with
  | none hidle =>
      right
      cases (hf.handshake.moves i).1 with
      | rests _ hreq hnext => exact .inr ⟨hidle, hreq, by simp [SpiMaster.left, hnext]⟩
      | starts _ hreq => exact .inl ⟨hidle, hreq, SpiMaster.left_le _⟩
      | works hbusy => exact absurd hidle hbusy.ne_idle
      | acks hbusy => exact absurd hidle hbusy.ne_idle
      | holds hdone => simp [hidle] at hdone
      | ends hdone => simp [hidle] at hdone
  | one w k hsends =>
      left
      refine SpiMaster.left_step hf.clocked hsends hwait ?_
      intro hstate
      exact hf.handshake.wrReq.2 (.inr (hf.handshake.busy (.inl hstate)))

theorem rank_step (hf : Framed words frames b) (hwait : b.fpga.master.waitCnt.toNat ≤ 2)
    (h : Stage b.fpga rs ws n) (hnone : asked b.fpga i = []) :
    ∃ n', Stage (step b.fpga i) rs (ws ++ committed b.fpga i) n' ∧
      rank (step b.fpga i) n' ≤ rank b.fpga n - 1 := by
  obtain ⟨n', hstage, hn⟩ := h.step i
  rw [hnone, List.append_nil] at hstage
  refine ⟨n', hstage, ?_⟩
  have hcount := hn hnone
  have hqueued := congrArg List.length (queued_step hf.handshake i)
  have hleft := left_step hf hwait i
  have hidle : b.fpga.master.state = .idle → SpiMaster.left b.fpga.master = 0 := fun hidle => by
    simp [SpiMaster.left, hidle]
  have hstarted : (started b.fpga).length =
      if b.fpga.master.state = .idle ∧ b.fpga.ctrl.wrReq = true then 1 else 0 := by
    rw [started]
    split_ifs <;> rfl
  have hquiet : b.fpga.ctrl.wrReq = false → queued b.fpga = [] := fun hreq =>
    queued_of_not_waiting (by simp [Waiting, hreq])
  have hwrReq := hf.handshake.wrReq
  rw [List.length_append, List.length_append] at hqueued
  simp only [rank]
  cases pauseStep hf.handshake h hnone with
  | commits hcommit hstate hle =>
      have hreq : b.fpga.ctrl.wrReq = false := by simpa [hstate] using hwrReq
      rw [hquiet hreq] at hqueued ⊢
      simp only [hreq, Bool.false_eq_true, and_false, if_false] at hstarted hleft
      simp only [List.length_nil] at hqueued ⊢
      omega
  | counts hcommit hlt =>
      rw [hcommit, List.length_nil] at hcount hqueued
      rcases hleft with hleft | ⟨hrest, hreq, hleft⟩ | ⟨hrest, hreq, hleft⟩
      · omega
      · rw [if_pos ⟨hrest, hreq⟩] at hstarted
        omega
      · omega
  | waits hcommit hstate heq =>
      have hreq : b.fpga.ctrl.wrReq = true := hwrReq.2 (.inr hstate)
      rw [hcommit, List.length_nil] at hcount hqueued
      rcases hleft with hleft | ⟨hrest, -, hleft⟩ | ⟨-, hnot, -⟩
      · omega
      · rw [if_pos ⟨hrest, hreq⟩] at hstarted
        omega
      · simp [hreq] at hnot
  | rests hcommit hstate hzero hpause hpause' =>
      have hreq : b.fpga.ctrl.wrReq = false := by simpa [hstate] using hwrReq
      rw [hcommit, List.length_nil] at hcount hqueued
      rw [hquiet hreq] at hqueued ⊢
      simp only [List.length_nil] at hqueued ⊢
      rcases hleft with hleft | ⟨-, hnot, -⟩ | ⟨hrest, -, hleft⟩
      · omega
      · simp [hreq] at hnot
      · omega

theorem pause_le (s : State) : pause s ≤ 13 := by
  simp only [pause]
  split <;> (try split_ifs) <;> omega

theorem Stage.le {s : State} (h : Stage s rs ws n) : n ≤ 6 := by
  cases h <;> omega

theorem rank_le (s : State) (hn : n ≤ 6) : rank s n ≤ 14000 := by
  have hqueued : (queued s).length ≤ 1 := by
    rw [queued]
    split_ifs <;> simp
  have hleft := SpiMaster.left_le s.master
  have hpause := pause_le s
  simp only [rank]
  omega

/-- With nothing left to do, nothing is on the way. -/
theorem nothing_of_rank {flight : List (BitVec 24)} (hflight : Flight b flight)
    (hwait : b.fpga.master.waitCnt.toNat ≤ 2) (hrank : rank b.fpga n = 0) :
    n = 0 ∧ flight = [] ∧ queued b.fpga = [] := by
  simp only [rank] at hrank
  have hqueued : queued b.fpga = [] := List.length_eq_zero_iff.1 (by omega)
  cases hflight with
  | none hidle => exact ⟨by omega, rfl, hqueued⟩
  | one w k hsends =>
      have hleft := SpiMaster.left_pos hsends hwait
      omega

/-- A run without requests takes the rank down. -/
theorem rank_run (hf : Framed words frames b) (hwait : b.fpga.master.waitCnt.toNat ≤ 2)
    (h : Stage b.fpga rs ws n) (is : List Inputs) (hnone : emits Bus.step Bus.asked b is = []) :
    ∃ n', Stage (runFrom Bus.step b is).fpga rs (ws ++ emits Bus.step Bus.commits b is) n' ∧
      rank (runFrom Bus.step b is).fpga n' ≤ rank b.fpga n - is.length := by
  induction is generalizing b words frames ws n with
  | nil =>
      exact ⟨n, by simpa using h, le_refl _⟩
  | cons i is ih =>
      rw [emits_cons, List.append_eq_nil_iff] at hnone
      obtain ⟨n₁, hstage, hrank⟩ := rank_step hf hwait h hnone.1
      obtain ⟨n', hstage', hrank'⟩ :=
        ih (hf.step i) (SpiMaster.waitCnt_step hwait _) hstage hnone.2
      refine ⟨n', ?_, ?_⟩
      · rw [emits_cons, ← List.append_assoc]
        exact hstage'
      · rw [List.length_cons]
        exact hrank'.trans (by
          show rank (SpiConfig.step b.fpga i) n₁ - is.length ≤ _
          omega)

end Rank

/-- The run so far. -/
theorem stage_run (is : List Inputs) :
    (runFrom Bus.step Bus.start is).fpga.master.waitCnt.toNat ≤ 2 ∧
      ∃ n, Stage (runFrom Bus.step Bus.start is).fpga (emits Bus.step Bus.asked Bus.start is)
        (emits Bus.step Bus.commits Bus.start is) n := by
  refine history_invariant (C := fun _ _ => True)
    (P := fun is (b : Bus) => b.fpga.master.waitCnt.toNat ≤ 2 ∧
      ∃ n, Stage b.fpga (emits Bus.step Bus.asked Bus.start is)
        (emits Bus.step Bus.commits Bus.start is) n) ⟨Nat.zero_le _, 6, ?_⟩ ?_ is
    (along_of_forall fun _ _ _ => trivial)
  · exact .boot 0 (.inl rfl) ⟨rfl, rfl, rfl, rfl, rfl, rfl, rfl⟩ rfl
  · rintro is i ⟨hwait, n, h⟩ -
    obtain ⟨n', hstage, -⟩ := h.step i
    rw [emits_snoc, emits_snoc]
    exact ⟨SpiMaster.waitCnt_step hwait _, n', hstage⟩

/-- What is still to come makes the words complete. -/
theorem Stage.complete {s : State} {rs : List (BitVec 24 × Fate)} {ws : List (BitVec 24)} {n : Nat} (h : Stage s rs ws n) :
    ∃ rest, rest.length = n ∧ Complete rs (ws ++ rest) := by
  have hentries (k : Nat) : Complete [] (table.take k ++ (table.drop k ++ [transfer])) := by
    rw [← List.append_assoc, List.take_append_drop]
    exact complete_nil
  have hlength (k : Nat) : (table.drop k ++ [transfer]).length = 5 - k + 1 := by
    rw [List.length_append, List.length_drop]
    rfl
  cases h with
  | boot => exact ⟨_, hlength 0, hentries 0⟩
  | first => exact ⟨_, hlength 0, hentries 0⟩
  | entry k spot _ _ _ hshown =>
      have hk : k < 5 := (List.getElem?_eq_some_iff.1 hshown).1
      exact ⟨_, (hlength k).trans (by omega), hentries k⟩
  | entrySent k spot _ _ _ hshown =>
      have hk : k < 5 := (List.getElem?_eq_some_iff.1 hshown).1
      exact ⟨_, (hlength (k + 1)).trans (by omega), hentries (k + 1)⟩
  | entryNext k _ _ hshown =>
      have hk : k < 5 := (List.getElem?_eq_some_iff.1 hshown).1
      exact ⟨_, (hlength (k + 1)).trans (by omega), hentries (k + 1)⟩
  | entryReady k _ _ hshown =>
      have hk : k < 5 := (List.getElem?_eq_some_iff.1 hshown).1
      exact ⟨_, (hlength k).trans (by omega), hentries k⟩
  | last => exact ⟨[transfer], rfl, complete_nil⟩
  | lastSent =>
      refine ⟨[], rfl, ?_⟩
      rw [List.append_nil]
      exact complete_nil
  | asked _ _ _ _ hsent => exact ⟨_, rfl, hsent⟩
  | askedCommits _ hsent => exact ⟨_, rfl, hsent⟩
  | askedSent _ _ _ hsent => exact ⟨_, rfl, hsent⟩
  | closing _ _ hsent => exact ⟨_, rfl, hsent⟩
  | closingHeld _ _ _ _ hsent => exact ⟨_, rfl, hsent⟩
  | closingSent _ _ _ hsent => exact ⟨[], rfl, by rwa [List.append_nil]⟩
  | quiet _ _ _ hsent => exact ⟨[], rfl, by rwa [List.append_nil]⟩

/-- Whatever is requested and when, the ADC receives whole words, driven throughout, in the order in
which they were committed to; with what is still due they are the table, the repeated transfer command
and the answers to the requests taken.  The cycle in which a request is taken decides what becomes of
it, and only the first can come too early.  Once nothing has been requested for a while, nothing is
missing. -/
theorem configures_adc (is : List Inputs) :
    ∃ sent unsent due, emits Bus.step Bus.received Bus.start is = sent.map wireBits ∧
      emits Bus.step Bus.commits Bus.start is = sent ++ unsent ∧
      sent ++ unsent ++ due = sequence (emits Bus.step Bus.asked Bus.start is) ∧
      (∀ a ∈ (emits Bus.step Bus.asked Bus.start is).tail, a.2 = .served) ∧
      (∀ before i after, is = before ++ i :: after →
        ∀ a ∈ (runFrom Bus.step Bus.start before).asked i,
          Taken (runFrom Bus.step Bus.start before).fpga a.2
            (emits Bus.step Bus.asked Bus.start before)
            (emits Bus.step Bus.commits Bus.start before)) ∧
      ∀ before after, is = before ++ after → 14000 ≤ after.length →
        emits Bus.step Bus.asked (runFrom Bus.step Bus.start before) after = [] →
          unsent = [] ∧ due = [] := by
  have htaken : ∀ before i after, is = before ++ i :: after →
      ∀ a ∈ (runFrom Bus.step Bus.start before).asked i,
        Taken (runFrom Bus.step Bus.start before).fpga a.2
          (emits Bus.step Bus.asked Bus.start before)
          (emits Bus.step Bus.commits Bus.start before) := by
    intro before i after _
    obtain ⟨-, n, hstage⟩ := stage_run before
    exact hstage.taken i
  obtain ⟨sent, flight, hwords, hframes, hflight⟩ := (framed_run is).words
  by_cases hlate : ∃ before after, is = before ++ after ∧ 14000 ≤ after.length ∧
      emits Bus.step Bus.asked (runFrom Bus.step Bus.start before) after = []
  · -- The rank has come down to zero.
    obtain ⟨before, after, rfl, hlong, hnone⟩ := hlate
    obtain ⟨hwait, n, hstage⟩ := stage_run before
    obtain ⟨n', hstage', hrank⟩ := rank_run (framed_run before) hwait hstage after hnone
    have hzero : rank (runFrom Bus.step Bus.start (before ++ after)).fpga n' = 0 := by
      have hle := rank_le (runFrom Bus.step Bus.start before).fpga hstage.le
      rw [runFrom_append]
      omega
    obtain ⟨rfl, rfl, hqueued⟩ := nothing_of_rank hflight (stage_run (before ++ after)).1 hzero
    obtain ⟨rest, hrest, hcomplete⟩ := hstage'.complete
    obtain rfl : rest = [] := List.length_eq_zero_iff.1 hrest
    rw [← emits_append, List.append_nil] at hcomplete
    have hasked : emits Bus.step Bus.asked Bus.start (before ++ after) =
        emits Bus.step Bus.asked Bus.start before := by
      rw [emits_append, hnone, List.append_nil]
    rw [hqueued, List.append_nil] at hwords
    rw [← hasked] at hcomplete
    refine ⟨sent, [], [], hframes, hwords, ?_, hcomplete.served, htaken,
      fun _ _ _ _ _ => ⟨rfl, rfl⟩⟩
    rw [List.append_nil, ← hwords]
    exact hcomplete.words
  · obtain ⟨-, n, hstage⟩ := stage_run is
    obtain ⟨rest, -, hcomplete⟩ := hstage.complete
    refine ⟨sent, _, rest, hframes, hwords, ?_, hcomplete.served, htaken, ?_⟩
    · rw [← hwords]
      exact hcomplete.words
    · intro before after his hlong hnone
      exact absurd ⟨before, after, his, hlong, hnone⟩ hlate

end SpiConfig

end Fpga
end Sdr
