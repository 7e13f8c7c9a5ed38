import Sdr.Fpga.SpiConfig

/-!
# SpiFrames — every word that is committed to is a frame

Between `spi_ctrl` and the master there are only the request and the acknowledgement, and the two run at
different paces: the next word may be waiting while the master still holds the chip select of the last
one.  What the ADC receives is nevertheless the words committed to, in order, whole, and driven
throughout (`framed_run`); at most two of them are still on the way.
-/

namespace Sdr
namespace Fpga
namespace SpiConfig

open Lib
open SpiMaster (Clocked Sends FrameStep)

/-! ## Request and acknowledgement -/

/-- A frame is being sent: chip select is low, and the acknowledgement is still to come. -/
def Busy (s : SpiMaster.State) : Prop :=
  s.state = .wait ∨ s.state = .wrAd ∨ s.state = .wrDa

theorem Busy.ne_idle {s : SpiMaster.State} (h : Busy s) : s.state ≠ .idle := by
  rcases h with h | h | h <;> simp [h]

theorem Busy.ne_done {s : SpiMaster.State} (h : Busy s) : s.state ≠ .done := by
  rcases h with h | h | h <;> simp [h]

structure Handshake (s : State) : Prop where
  wrRdEn : s.lut.wrRdEn = true
  rdReq : s.ctrl.rdReq = false
  writes : s.ctrl.state ≠ .rdAddr ∧ s.ctrl.state ≠ .rdData
  wrReq : s.ctrl.wrReq = true ↔ s.ctrl.state = .wrAddr ∨ s.ctrl.state = .wrData
  ioEn : s.ctrl.wrReq = true → s.ctrl.ioEn = true
  phase : s.master.state = .idle ∨ Busy s.master ∨ s.master.state = .done
  busy : Busy s.master → s.ctrl.state = .wrData
  ack : s.master.ack = true → s.master.state = .done ∧ s.ctrl.state = .wrData
  cs : s.master.cs = true ↔ s.master.state = .idle

/-- What a master that only writes can do in a cycle. -/
inductive MasterMove (p : SpiMaster.Ports) (s s' : SpiMaster.State) : Prop
  | rests (hidle : s.state = .idle) (hnone : p.wrReq = false) (hstate : s'.state = .idle)
      (hack : s'.ack = s.ack) (hcs : s'.cs = s.cs)
  | starts (hidle : s.state = .idle) (hreq : p.wrReq = true) (hstate : s'.state = .wait)
      (hack : s'.ack = s.ack) (hcs : s'.cs = false) (haddr : s'.dataAddrReg = p.dataAddr)
      (hdata : s'.dataInReg = p.dataIn)
  | works (hbusy : Busy s) (hstate : Busy s') (hack : s'.ack = s.ack) (hcs : s'.cs = s.cs)
  | acks (hbusy : Busy s) (hstate : s'.state = .done) (hack : s'.ack = true) (hcs : s'.cs = s.cs)
  | holds (hdone : s.state = .done) (hstate : s'.state = .done) (hack : s'.ack = false)
      (hcs : s'.cs = s.cs)
  | ends (hdone : s.state = .done) (hstate : s'.state = .idle) (hack : s'.ack = false)
      (hcs : s'.cs = true)

theorem masterMove {s : SpiMaster.State} {p : SpiMaster.Ports} (hrd : p.rdReq = false)
    (hphase : s.state = .idle ∨ Busy s ∨ s.state = .done) (hreq : Busy s → p.wrReq = true) :
    MasterMove p s (SpiMaster.step s p) := by
  rcases hphase with hstate | (hstate | hstate | hstate) | hstate
  · cases hwr : p.wrReq with
    | false =>
        refine .rests hstate hwr ?_ ?_ ?_ <;>
          simp [SpiMaster.step, SpiMaster.sequencer, hstate, hwr, hrd]
    | true =>
        refine .starts hstate hwr ?_ ?_ ?_ ?_ ?_ <;>
          simp [SpiMaster.step, SpiMaster.sequencer, hstate, hwr]
  · have hwr := hreq (.inl hstate)
    refine .works (.inl hstate) ?_ ?_ ?_ <;>
      simp only [Busy, SpiMaster.step, SpiMaster.sequencer, hstate, hwr, if_true] <;>
      split_ifs <;> simp [SpiMaster.shiftAddr, hstate]
  · refine .works (.inr (.inl hstate)) ?_ ?_ ?_ <;>
      simp only [Busy, SpiMaster.step, SpiMaster.sequencer, hstate] <;>
      split_ifs <;> simp [SpiMaster.shiftAddr, SpiMaster.shiftData, hstate]
  · by_cases hlast : (s.sclk2x && SpiMaster.evenEdges s) = true ∧ ¬s.dataCnt < 7
    · refine .acks (.inr (.inr hstate)) ?_ ?_ ?_ <;>
        simp only [SpiMaster.step, SpiMaster.sequencer, hstate, if_pos hlast.1, if_neg hlast.2]
    · rw [not_and, not_not] at hlast
      refine .works (.inr (.inr hstate)) ?_ ?_ ?_ <;>
        simp only [Busy, SpiMaster.step, SpiMaster.sequencer, hstate] <;>
        split_ifs <;> simp_all [SpiMaster.shiftData]
  · cases htick : s.sclk2x with
    | false =>
        refine .holds hstate ?_ ?_ ?_ <;>
          simp [SpiMaster.step, SpiMaster.sequencer, hstate, htick]
    | true =>
        refine .ends hstate ?_ ?_ ?_ <;>
          simp [SpiMaster.step, SpiMaster.sequencer, hstate, htick]

theorem handshake_resetState : Handshake resetState := by
  constructor <;> simp [resetState, Busy, LutConfig.resetState, SpiCtrl.resetState,
    SpiMaster.resetState]

/-- What a controller that only writes can do in a cycle. -/
inductive CtrlMove (p : SpiCtrl.Ports) (s s' : SpiCtrl.State) : Prop
  | rests (hstate : s.state ≠ .wrRd ∧ s.state ≠ .wrAddr ∧ s.state ≠ .wrData)
      (hnext : s'.state ≠ .wrAddr ∧ s'.state ≠ .wrData ∧ s'.state ≠ .rdAddr ∧ s'.state ≠ .rdData)
      (hreq : s'.wrReq = s.wrReq)
  | commits (hstate : s.state = .wrRd) (hnext : s'.state = .wrAddr) (hreq : s'.wrReq = true)
      (hio : s'.ioEn = true) (haddr : s'.dataAddr = s.addrR) (hdata : s'.dataIn = s.dataR)
  | addresses (hstate : s.state = .wrAddr) (hnext : s'.state = .wrData) (hreq : s'.wrReq = s.wrReq)
      (hio : s'.ioEn = s.ioEn) (haddr : s'.dataAddr = s.dataAddr) (hdata : s'.dataIn = s.dataIn)
  | waits (hstate : s.state = .wrData) (hack : p.ack = false) (hnext : s'.state = .wrData)
      (hreq : s'.wrReq = s.wrReq) (hio : s'.ioEn = s.ioEn) (haddr : s'.dataAddr = s.dataAddr)
      (hdata : s'.dataIn = s.dataIn)
  | finishes (hstate : s.state = .wrData) (hack : p.ack = true) (hnext : s'.state = .done)
      (hreq : s'.wrReq = false)

theorem ctrlMove {s : SpiCtrl.State} {p : SpiCtrl.Ports}
    (hwrites : s.state ≠ .rdAddr ∧ s.state ≠ .rdData) (hen : p.wrRdEn = true) :
    CtrlMove p s (SpiCtrl.step s p) := by
  cases hstate : s.state with
  | idle =>
      refine .rests (by simp [hstate]) ?_ ?_ <;>
        simp only [SpiCtrl.step, SpiCtrl.sequencer, hstate]
      cases s.valid <;> simp
  | wrRd =>
      refine .commits hstate ?_ ?_ ?_ ?_ ?_ <;>
        simp [SpiCtrl.step, SpiCtrl.sequencer, SpiCtrl.commit, hstate, hen]
  | wrAddr =>
      refine .addresses hstate ?_ ?_ ?_ ?_ ?_ <;> simp only [SpiCtrl.step, SpiCtrl.sequencer, hstate]
  | wrData =>
      cases hack : p.ack with
      | false =>
          refine .waits hstate hack ?_ ?_ ?_ ?_ ?_ <;>
            simp [SpiCtrl.step, SpiCtrl.sequencer, hstate, hack]
      | true =>
          refine .finishes hstate hack ?_ ?_ <;>
            simp [SpiCtrl.step, SpiCtrl.sequencer, hstate, hack]
  | rdAddr => exact absurd hstate hwrites.1
  | rdData => exact absurd hstate hwrites.2
  | done =>
      refine .rests (by simp [hstate]) ?_ ?_ <;> simp [SpiCtrl.step, SpiCtrl.sequencer, hstate]
  | wait =>
      refine .rests (by simp [hstate]) ?_ ?_ <;>
        simp only [SpiCtrl.step, SpiCtrl.sequencer, hstate] <;> split_ifs <;> simp

theorem ctrl_rdReq {s : SpiCtrl.State} {p : SpiCtrl.Ports}
    (hwrites : s.state ≠ .rdAddr ∧ s.state ≠ .rdData) (hen : p.wrRdEn = true)
    (hrd : s.rdReq = false) : (SpiCtrl.step s p).rdReq = false := by
  cases hstate : s.state <;> simp_all [SpiCtrl.step, SpiCtrl.sequencer, SpiCtrl.commit] <;>
    split_ifs <;> simp_all

theorem lut_wrRdEn (s : LutConfig.State) (lutIndex confEn : Bool) (regConf : BitVec 32) :
    (LutConfig.step s lutIndex confEn regConf).wrRdEn = s.wrRdEn := by
  simp only [LutConfig.step, LutConfig.configure]
  split_ifs
  all_goals
    first
    | rfl
    | split <;> rfl

section Cycle

variable {s : State} {i : Inputs}

theorem Handshake.moves (h : Handshake s) (i : Inputs) :
    MasterMove (masterPorts s i) s.master (step s i).master ∧
      CtrlMove (ctrlPorts s) s.ctrl (step s i).ctrl := by
  refine ⟨masterMove h.rdReq h.phase ?_, ctrlMove h.writes h.wrRdEn⟩
  intro hbusy
  have hwrite := h.wrReq
  simp [h.busy hbusy] at hwrite
  exact hwrite

theorem Handshake.step (h : Handshake s) (i : Inputs) : Handshake (step s i) := by
  obtain ⟨hmaster, hctrl⟩ := h.moves i
  obtain ⟨hwrRdEn, hrdReq, hwrites, hwrReq, hioEn, hphase, hbusy, hack, hcs⟩ := h
  refine ⟨?_, ctrl_rdReq hwrites hwrRdEn hrdReq, ?_, ?_, ?_, ?_, ?_, ?_, ?_⟩
  · rw [SpiConfig.step, lut_wrRdEn]
    exact hwrRdEn
  · cases hctrl <;> simp_all
  · cases hctrl <;> simp_all
  · cases hctrl <;> simp_all
  · cases hmaster <;> simp_all [Busy]
  · cases hmaster <;> cases hctrl <;> simp_all [Busy, ctrlPorts, masterPorts]
  · cases hmaster <;> cases hctrl <;> simp_all [Busy, ctrlPorts, masterPorts]
  · cases hmaster with
    | works hb hnext _ hc => simp [hc, hcs, hb.ne_idle, hnext.ne_idle]
    | acks hb hnext _ hc => simp [hc, hcs, hb.ne_idle, hnext]
    | _ => simp_all

/-! ## Words on the way -/

/-- The word that the controller asks the master to send. -/
def word (s : State) : BitVec 24 :=
  s.ctrl.dataAddr ++ s.ctrl.dataIn

/-- The controller waits for a master that has not started on its word. -/
def Waiting (s : State) : Prop :=
  s.ctrl.wrReq = true ∧
    (s.master.state = .idle ∨ (s.master.state = .done ∧ s.master.ack = false))

instance (s : State) : Decidable (Waiting s) :=
  inferInstanceAs (Decidable (_ ∧ _))

def queued (s : State) : List (BitVec 24) :=
  if Waiting s then [word s] else []

/-- The word that the master starts on in this cycle. -/
def started (s : State) : List (BitVec 24) :=
  if s.master.state = .idle ∧ s.ctrl.wrReq = true then [word s] else []

theorem queued_of_waiting (h : Waiting s) : queued s = [word s] :=
  if_pos h

theorem queued_of_not_waiting (h : ¬Waiting s) : queued s = [] :=
  if_neg h

/-- A word that is asked for in two cycles is the same word, started on or not. -/
theorem queued_requesting {s' : State} {p : SpiMaster.Ports} (hp : p.wrReq = s.ctrl.wrReq)
    (hmaster : MasterMove p s.master s'.master) (hreq : s.ctrl.wrReq = true)
    (hreq' : s'.ctrl.wrReq = true) (hword : word s' = word s) (hack : s.master.ack = false) :
    queued s = started s ++ queued s' := by
  cases hmaster with
  | rests _ hnone => simp [hp, hreq] at hnone
  | starts hidle _ hnext =>
      have hwaiting : Waiting s := ⟨hreq, .inl hidle⟩
      have hnot : ¬Waiting s' := by simp [Waiting, hnext]
      simp [queued_of_waiting hwaiting, queued_of_not_waiting hnot, started, hidle, hreq]
  | works hbusy hnext =>
      have hnow : ¬Waiting s := by simp [Waiting, hbusy.ne_idle, hbusy.ne_done]
      have hthen : ¬Waiting s' := by simp [Waiting, hnext.ne_idle, hnext.ne_done]
      simp [queued_of_not_waiting hnow, queued_of_not_waiting hthen, started, hbusy.ne_idle]
  | acks hbusy hnext hack' =>
      have hnow : ¬Waiting s := by simp [Waiting, hbusy.ne_idle, hbusy.ne_done]
      have hthen : ¬Waiting s' := by simp [Waiting, hnext, hack']
      simp [queued_of_not_waiting hnow, queued_of_not_waiting hthen, started, hbusy.ne_idle]
  | holds hdone hnext hack' =>
      have hnow : Waiting s := ⟨hreq, .inr ⟨hdone, hack⟩⟩
      have hthen : Waiting s' := ⟨hreq', .inr ⟨hnext, hack'⟩⟩
      simp [queued_of_waiting hnow, queued_of_waiting hthen, started, hdone, hword]
  | ends hdone hnext hack' =>
      have hnow : Waiting s := ⟨hreq, .inr ⟨hdone, hack⟩⟩
      have hthen : Waiting s' := ⟨hreq', .inl hnext⟩
      simp [queued_of_waiting hnow, queued_of_waiting hthen, started, hdone, hword]

theorem queued_step (h : Handshake s) (i : Inputs) :
    queued s ++ committed s i = started s ++ queued (step s i) := by
  obtain ⟨hmaster, hctrl⟩ := h.moves i
  have hwrReq := h.wrReq
  have hack := h.ack
  cases hctrl with
  | rests hstate hnext hreq =>
      have hquiet : s.ctrl.wrReq = false := by simpa [hstate] using hwrReq
      simp [queued, Waiting, started, committed, hquiet, hreq, hstate]
  | commits hstate hnext hreq hio haddr hdata =>
      have hquiet : s.ctrl.wrReq = false := by simpa [hstate] using hwrReq
      have hbusy : ¬Busy s.master := by
        intro hb
        have hstate' := h.busy hb
        simp [hstate] at hstate'
      have hnow : ¬Waiting s := by simp [Waiting, hquiet]
      have hthen : Waiting (step s i) := by
        refine ⟨hreq, ?_⟩
        cases hmaster <;> simp_all [masterPorts]
      have hword : word (step s i) = s.ctrl.addrR ++ s.ctrl.dataR := by
        rw [word, haddr, hdata]
      rw [queued_of_not_waiting hnow, queued_of_waiting hthen, hword]
      simp [started, committed, hquiet, hstate]
  | addresses hstate hnext hreq hio haddr hdata =>
      have hreq0 : s.ctrl.wrReq = true := hwrReq.2 (.inl hstate)
      have hnone : s.master.ack = false := by
        cases ha : s.master.ack with
        | false => rfl
        | true =>
            have hstate' := (hack ha).2
            simp [hstate] at hstate'
      have hword : word (step s i) = word s := by rw [word, word, haddr, hdata]
      rw [queued_requesting rfl hmaster hreq0 (hreq.trans hreq0) hword hnone]
      simp [committed, hstate]
  | waits hstate hnone hnext hreq hio haddr hdata =>
      have hreq0 : s.ctrl.wrReq = true := hwrReq.2 (.inr hstate)
      have hword : word (step s i) = word s := by rw [word, word, haddr, hdata]
      rw [queued_requesting rfl hmaster hreq0 (hreq.trans hreq0) hword hnone]
      simp [committed, hstate]
  | finishes hstate hdone hnext hreq =>
      have hdone' : s.master.ack = true := hdone
      simp [queued, Waiting, started, committed, hreq, hstate, hdone', hack hdone']

end Cycle

/-! ## Frames -/

/-- The word that is on the wires, as far as the ADC has taken it. -/
inductive Flight (b : Bus) : List (BitVec 24) → Prop
  | none (hidle : b.fpga.master.state = .idle) (hack : b.fpga.master.ack = false)
      (haddrCnt : b.fpga.master.addrCnt = 0) (hdataCnt : b.fpga.master.dataCnt = 0)
      (hbits : b.adc.bits = []) : Flight b []
  | one (w : BitVec 24) (n : Nat) (hsends : Sends w b.fpga.master n)
      (hbits : b.adc.bits = (wireBits w).take n) : Flight b [w]

structure Framed (words : List (BitVec 24)) (frames : List (List (Option Bool))) (b : Bus) :
    Prop where
  clocked : Clocked b.fpga.master
  handshake : Handshake b.fpga
  cs : b.adc.cs = b.fpga.master.cs
  sclk : b.adc.sclk = b.fpga.master.sclk
  words : ∃ sent flight, words = sent ++ (flight ++ queued b.fpga) ∧
    frames = sent.map wireBits ∧ Flight b flight

section Frames

variable {b : Bus} {i : Inputs} {w : BitVec 24} {n : Nat}

theorem take_succ_wireBits (hn : n < 24) :
    (wireBits w).take (n + 1) = (wireBits w).take n ++ [some (w.getMsbD n)] := by
  have hget : (wireBits w)[n]? = some (some (w.getMsbD n)) := by
    simp [wireBits, hn]
  rw [List.take_add_one, hget]
  rfl

theorem take_wireBits : (wireBits w).take 24 = wireBits w := by
  rw [List.take_of_length_le]
  simp [wireBits]

theorem Handshake.busy_of_high {s : State} (h : Handshake s) (hc : Clocked s.master)
    (hhigh : s.master.sclk = true) : Busy s.master := by
  have hlow := hc.low
  rcases h.phase with hidle | hbusy | hdone
  · rw [hidle] at hlow
    simp [hlow rfl] at hhigh
  · exact hbusy
  · rw [hdone] at hlow
    simp [hlow rfl] at hhigh

/-- While a frame is being sent the line is driven. -/
theorem Handshake.io_of_busy {s : State} (h : Handshake s) (hbusy : Busy s.master) :
    io s = some s.master.mosi := by
  have hwrite := h.wrReq.2 (.inr (h.busy hbusy))
  rw [io, if_pos (h.ioEn hwrite)]

/-- A resting master stays at rest, or starts on the word that waits. -/
theorem Flight.step_idle (h : Handshake b.fpga) (hcs : b.adc.cs = b.fpga.master.cs)
    (hidle : b.fpga.master.state = .idle) (hack : b.fpga.master.ack = false)
    (haddrCnt : b.fpga.master.addrCnt = 0) (hdataCnt : b.fpga.master.dataCnt = 0)
    (hbits : b.adc.bits = []) (i : Inputs) :
    b.received i = [] ∧ Flight (b.step i) (started b.fpga) := by
  have hhigh : b.adc.cs = true := hcs.trans (h.cs.2 hidle)
  refine ⟨SpiReceiver.frame_of_resting hhigh, ?_⟩
  have hcounts : (SpiMaster.step b.fpga.master (masterPorts b.fpga i)).addrCnt = 0 ∧
      (SpiMaster.step b.fpga.master (masterPorts b.fpga i)).dataCnt = 0 := by
    simp only [SpiMaster.step, SpiMaster.sequencer, hidle]
    split_ifs <;> exact ⟨haddrCnt, hdataCnt⟩
  have hbits' : (b.adc.step (pins (step b.fpga i))).bits = [] := by
    simp [SpiReceiver.step, SpiReceiver.rises, hhigh, hbits]
  cases (h.moves i).1 with
  | rests _ hnone hnext hack' =>
      have hreq : b.fpga.ctrl.wrReq = false := hnone
      have hstarted : started b.fpga = [] := by simp [started, hreq]
      rw [hstarted]
      exact .none hnext (hack'.trans hack) hcounts.1 hcounts.2 hbits'
  | starts _ hreq hnext hack' _ haddr hdata =>
      have hreq' : b.fpga.ctrl.wrReq = true := hreq
      have hstarted : started b.fpga = [word b.fpga] := by simp [started, hidle, hreq']
      have haddr' : SpiMaster.addr (word b.fpga) = b.fpga.ctrl.dataAddr := by
        simp only [SpiMaster.addr, word]
        exact BitVec.extractLsb'_append_eq_left
      have hdata' : SpiMaster.data (word b.fpga) = b.fpga.ctrl.dataIn := by
        simp only [SpiMaster.data, word]
        exact BitVec.extractLsb'_append_eq_right
      rw [hstarted]
      exact .one _ 0 (.wait hnext (hack'.trans hack) (haddr.trans haddr'.symm)
        (hdata.trans hdata'.symm) hcounts.1 hcounts.2) hbits'
  | works hbusy => exact absurd hidle hbusy.ne_idle
  | acks hbusy => exact absurd hidle hbusy.ne_idle
  | holds hdone => simp [hidle] at hdone
  | ends hdone => simp [hidle] at hdone

/-- A frame goes on, or is complete. -/
theorem Flight.step_sending (hc : Clocked b.fpga.master) (h : Handshake b.fpga)
    (hcs : b.adc.cs = b.fpga.master.cs) (hsclk : b.adc.sclk = b.fpga.master.sclk)
    (hsends : Sends w b.fpga.master n) (hbits : b.adc.bits = (wireBits w).take n) (i : Inputs) :
    (b.received i = [] ∧ Flight (b.step i) [w]) ∨
      (b.received i = [wireBits w] ∧ Flight (b.step i) []) := by
  have hselected : b.adc.cs = false := by
    rw [hcs]
    exact Bool.eq_false_iff.2 fun hhigh => hsends.ne_idle (h.cs.1 hhigh)
  have h' := h.step i
  have hc' : Clocked (step b.fpga i).master := hc.step _
  have hreq : b.fpga.master.state = .wait → (masterPorts b.fpga i).wrReq = true := by
    intro hwait
    exact h.wrReq.2 (.inr (h.busy (.inl hwait)))
  have hlow (hne : (step b.fpga i).master.state ≠ .idle) :
      (pins (step b.fpga i)).cs = false :=
    Bool.eq_false_iff.2 fun hhigh => hne (h'.cs.1 hhigh)
  cases SpiMaster.frameStep (p := masterPorts b.fpga i) hc hsends hreq with
  | keeps hsteady hnext =>
      have hcs' := hlow hnext.ne_idle
      have hsteady' : b.adc.sclk = true ∨ (pins (step b.fpga i)).sclk = false := by
        rw [hsclk]
        exact hsteady
      refine .inl ⟨SpiReceiver.frame_of_selected hcs', .one w n hnext ?_⟩
      exact (SpiReceiver.step_bits_of_steady hcs' hsteady').trans hbits
  | rises hrest hhigh hmosi hnext =>
      have hcs' := hlow hnext.ne_idle
      have hio : (pins (step b.fpga i)).io = some (w.getMsbD n) := by
        have hdriven := h'.io_of_busy (h'.busy_of_high hc' hhigh)
        rw [pins, hdriven]
        exact congrArg some hmosi
      refine .inl ⟨SpiReceiver.frame_of_selected hcs', .one w (n + 1) hnext ?_⟩
      rw [take_succ_wireBits (Nat.lt_of_succ_le hnext.le), ← hbits, ← hio]
      exact SpiReceiver.step_bits_of_rise hcs' hselected (hsclk.trans hrest) hhigh
  | ends hn hdone hidle haddrCnt hdataCnt =>
      have hcs' : (pins (step b.fpga i)).cs = true := h'.cs.2 hidle
      have hall : b.adc.bits = wireBits w := by
        rw [hbits, hn, take_wireBits]
      have hack : (step b.fpga i).master.ack = false :=
        Bool.eq_false_iff.2 fun hack => absurd (hidle.symm.trans (h'.ack hack).1) (by decide)
      refine .inr ⟨?_, .none hidle hack haddrCnt hdataCnt
        (SpiReceiver.step_bits_of_deselected hcs')⟩
      rw [← hall]
      exact SpiReceiver.frame_of_deselected hcs' hselected

theorem framed_start : Framed [] [] Bus.start where
  clocked := SpiMaster.clocked_resetState
  handshake := handshake_resetState
  cs := rfl
  sclk := rfl
  words := ⟨[], [], rfl, rfl, .none rfl rfl rfl rfl rfl⟩

theorem Framed.step {words : List (BitVec 24)} {frames : List (List (Option Bool))}
    (h : Framed words frames b) (i : Inputs) :
    Framed (words ++ b.commits i) (frames ++ b.received i) (b.step i) := by
  obtain ⟨hclocked, hhandshake, hcs, hsclk, sent, flight, rfl, rfl, hflight⟩ := h
  refine ⟨hclocked.step _, hhandshake.step i, rfl, rfl, ?_⟩
  have hqueued : queued b.fpga ++ b.commits i = started b.fpga ++ queued (b.step i).fpga :=
    queued_step hhandshake i
  have hwords : sent ++ (flight ++ queued b.fpga) ++ b.commits i =
      sent ++ (flight ++ started b.fpga ++ queued (b.step i).fpga) := by
    rw [List.append_assoc, List.append_assoc, hqueued, List.append_assoc]
  rw [hwords]
  cases hflight with
  | none hidle hack haddrCnt hdataCnt hbits =>
      obtain ⟨hreceived, hnext⟩ :=
        Flight.step_idle hhandshake hcs hidle hack haddrCnt hdataCnt hbits i
      exact ⟨sent, started b.fpga, rfl, by rw [hreceived, List.append_nil], hnext⟩
  | one w n hsends hbits =>
      have hstarted : started b.fpga = [] := by simp [started, hsends.ne_idle]
      rw [hstarted]
      rcases Flight.step_sending hclocked hhandshake hcs hsclk hsends hbits i with
        ⟨hreceived, hnext⟩ | ⟨hreceived, hnext⟩
      · exact ⟨sent, [w], rfl, by rw [hreceived, List.append_nil], hnext⟩
      · refine ⟨sent ++ [w], [], ?_, ?_, hnext⟩
        · simp
        · rw [hreceived, List.map_append]
          rfl

/-- The frames that the ADC receives are the words committed to. -/
theorem framed_run (is : List Inputs) :
    Framed (emits Bus.step Bus.commits Bus.start is) (emits Bus.step Bus.received Bus.start is)
      (runFrom Bus.step Bus.start is) := by
  refine history_invariant (C := fun _ _ => True)
    (P := fun is b => Framed (emits Bus.step Bus.commits Bus.start is)
      (emits Bus.step Bus.received Bus.start is) b) framed_start ?_ is
    (along_of_forall fun _ _ _ => trivial)
  intro is i h _
  rw [emits_snoc, emits_snoc]
  exact h.step i

end Frames

end SpiConfig
end Fpga
end Sdr
