import Mathlib.Data.BitVec
import Sdr.Lib.SpiWire

/-!
# SpiMaster — the serial master of the ADC configuration

Model of `fpga/rtl/vendor/acfl3432/spi_master.v` with the parameters that `spi_ctrl` gives it:
`CPOL = CPHA = 0`, most significant bit first, 16 address bits and 8 data bits, and `DIV_PARAM = 16`.

The clock divider and the sequencer run side by side.  The divider toggles SCLK when it wraps, and
raises `SCLK2X` one cycle later; the sequencer moves on `SCLK2X` only, and changes MOSI while SCLK is low.
-/

namespace Sdr
namespace Fpga
namespace SpiMaster

/-- `state`. -/
inductive Phase
  | idle
  | wait
  | wrAd
  | wrDa
  | rdAd
  | rdDa
  | done
  deriving DecidableEq

/-- The phases in which SCLK runs. -/
def Phase.shifts : Phase → Bool
  | .wrAd | .wrDa | .rdAd | .rdDa => true
  | _ => false

structure State where
  cs : Bool
  sclk : Bool
  mosi : Bool
  ack : Bool
  convDone : Bool
  dataOut : BitVec 8
  dataInReg : BitVec 8
  dataAddrReg : BitVec 16
  divCnt : BitVec 16
  sclk2x : Bool
  clkEdgeCnt : BitVec 8
  addrCnt : BitVec 16
  dataCnt : BitVec 8
  waitCnt : BitVec 4
  en : Bool
  state : Phase
  nextState : Phase
  rdState : Bool
  deriving DecidableEq

def resetState : State where
  cs := true
  sclk := false
  mosi := true
  ack := false
  convDone := false
  dataOut := 0
  dataInReg := 0
  dataAddrReg := 0
  divCnt := 0
  sclk2x := false
  clkEdgeCnt := 0
  addrCnt := 0
  dataCnt := 0
  waitCnt := 0
  en := false
  state := .idle
  nextState := .idle
  rdState := false

structure Ports where
  wrReq : Bool
  rdReq : Bool
  dataAddr : BitVec 16
  dataIn : BitVec 8
  miso : Bool

/-- `DIV_CNT == DIV_PARAM - 1`. -/
def lastDiv (s : State) : Bool :=
  s.divCnt == 15

/-- SCLK has made an even number of edges: `clk_edge_cnt[0] == (CPHA ^ CPOL)`. -/
def evenEdges (s : State) : Bool :=
  !s.clkEdgeCnt.getLsbD 0

/-- The next address bit goes to MOSI. -/
def shiftAddr (s : State) : State :=
  { s with
    mosi := s.dataAddrReg.msb
    dataAddrReg := s.dataAddrReg <<< 1 }

def shiftData (s : State) : State :=
  { s with
    mosi := s.dataInReg.msb
    dataInReg := s.dataInReg <<< 1 }

/-- A bit from MISO. -/
def shiftOut (s : State) (miso : Bool) : State :=
  { s with dataOut := s.dataOut <<< 1 ||| (BitVec.ofBool miso).setWidth 8 }

/-- The block with `case(state)`. -/
def sequencer (s : State) (p : Ports) : State :=
  match s.state with
  | .idle =>
      let s := { s with convDone := false, waitCnt := 0 }
      if p.wrReq || p.rdReq then
        { s with state := .wait, cs := false, dataAddrReg := p.dataAddr, dataInReg := p.dataIn }
      else
        s
  | .wait =>
      if s.sclk2x then
        if s.waitCnt == 2 then
          if p.wrReq then
            { shiftAddr s with state := .wrAd }
          else if p.rdReq then
            { shiftAddr s with state := .rdAd }
          else
            { s with state := .idle }
        else
          { s with waitCnt := s.waitCnt + 1 }
      else
        s
  | .wrAd =>
      if s.sclk2x && evenEdges s then
        if s.addrCnt < 15 then
          { shiftAddr s with addrCnt := s.addrCnt + 1 }
        else
          { shiftData s with state := .wrDa, addrCnt := 0 }
      else
        s
  | .wrDa =>
      if s.sclk2x && evenEdges s then
        if s.dataCnt < 7 then
          { shiftData s with dataCnt := s.dataCnt + 1 }
        else
          { s with state := .done, ack := true, dataCnt := 0 }
      else
        s
  | .rdAd =>
      if s.sclk2x && evenEdges s then
        if s.addrCnt < 15 then
          { shiftAddr s with addrCnt := s.addrCnt + 1 }
        else
          { shiftOut s p.miso with state := .rdDa, addrCnt := 0 }
      else
        s
  | .rdDa =>
      if s.sclk2x && evenEdges s then
        if s.dataCnt < 7 then
          { shiftOut s p.miso with dataCnt := s.dataCnt + 1 }
        else
          { s with state := .done, ack := true, dataCnt := 0 }
      else
        s
  | .done =>
      let s := { s with ack := false }
      if s.sclk2x then
        { s with state := .idle, cs := true, convDone := true }
      else
        s

/-- SCLK and the count of its edges move together. -/
def toggles (s : State) : Bool :=
  s.state.shifts && lastDiv s

def step (s : State) (p : Ports) : State :=
  { sequencer s p with
    en :=
      if p.wrReq || p.rdReq then
        true
      else if s.convDone then
        false
      else
        s.en
    divCnt :=
      if s.en then
        if lastDiv s then 0 else s.divCnt + 1
      else
        0
    sclk2x := s.en && lastDiv s
    sclk := s.sclk ^^ toggles s
    clkEdgeCnt := if toggles s then s.clkEdgeCnt + 1 else s.clkEdgeCnt
    nextState := s.state
    rdState := s.nextState == .rdDa }

/-- The read phase has begun in the cycle before. -/
def rdAck (s : State) : Bool :=
  s.nextState == .rdDa && !s.rdState

/-! ## The divider -/

/-- What the clock of the master keeps, whatever it is asked. -/
structure Clocked (s : State) : Prop where
  divCnt : s.divCnt ≤ 15
  sclk2x : s.sclk2x = true → s.divCnt = 0
  sclk : s.sclk = s.clkEdgeCnt.getLsbD 0
  en : s.state ≠ .idle → s.en = true
  convDone : s.convDone = true → s.state = .idle
  low : s.state.shifts = false → s.sclk = false

section Divider

variable {s : State} {p : Ports}

theorem clocked_resetState : Clocked resetState := by
  constructor <;> simp [resetState]

theorem Clocked.evenEdges_eq (h : Clocked s) : evenEdges s = !s.sclk := by
  rw [evenEdges, h.sclk]

/-- SCLK does not move in a cycle in which the sequencer may. -/
theorem Clocked.not_toggles (h : Clocked s) (htick : s.sclk2x = true) : toggles s = false := by
  simp [toggles, lastDiv, h.sclk2x htick]

theorem getLsbD_zero_succ (c : BitVec 8) : (c + 1).getLsbD 0 = !c.getLsbD 0 := by
  revert c
  decide

@[simp] theorem step_sclk (s : State) (p : Ports) : (step s p).sclk = (s.sclk ^^ toggles s) := rfl

@[simp] theorem step_sclk2x (s : State) (p : Ports) :
    (step s p).sclk2x = (s.en && lastDiv s) := rfl

theorem toggles_of_not_shifts (h : s.state.shifts = false) : toggles s = false := by
  simp [toggles, h]

theorem sequencer_leaves (h : Clocked s) (hshifts : s.state.shifts = true)
    (hleaves : (sequencer s p).state.shifts = false) : s.sclk2x = true ∧ s.sclk = false := by
  have heven := h.evenEdges_eq
  cases hstate : s.state <;> simp only [hstate, Phase.shifts] at hshifts <;>
    simp only [sequencer, hstate] at hleaves <;>
    cases htick : s.sclk2x <;> cases hlow : s.sclk <;>
    simp_all [Phase.shifts]

theorem step_idle_of_quiet (hidle : s.state = .idle) (hwr : p.wrReq = false)
    (hrd : p.rdReq = false) : (step s p).state = .idle := by
  simp [step, sequencer, hidle, hwr, hrd]

theorem Clocked.step (h : Clocked s) (p : Ports) : Clocked (step s p) where
  divCnt := by
    have hle := h.divCnt
    simp only [SpiMaster.step]
    cases s.en with
    | false => simp
    | true =>
        by_cases hlast : s.divCnt = 15
        · simp [lastDiv, hlast]
        · simp only [lastDiv, beq_iff_eq, hlast, if_true, if_false]
          bv_omega
  sclk2x := by
    intro htick
    simp only [SpiMaster.step, Bool.and_eq_true] at htick ⊢
    simp [htick]
  sclk := by
    simp only [SpiMaster.step, h.sclk]
    cases toggles s with
    | false => simp
    | true => rw [if_pos rfl, getLsbD_zero_succ, Bool.xor_true]
  en := by
    intro hbusy
    simp only [SpiMaster.step]
    by_cases hreq : (p.wrReq || p.rdReq) = true
    · simp [hreq]
    · simp only [Bool.or_eq_true, not_or, Bool.not_eq_true] at hreq
      have hstate : s.state ≠ .idle := fun hidle =>
        hbusy (step_idle_of_quiet hidle hreq.1 hreq.2)
      have hconv : s.convDone = false := by
        cases hc : s.convDone with
        | false => rfl
        | true => exact absurd (h.convDone hc) hstate
      simp [hreq, hconv, h.en hstate]
  convDone := by
    intro hconv
    have hkeep := h.convDone
    simp only [SpiMaster.step] at hconv ⊢
    cases hstate : s.state <;> simp only [sequencer, hstate, shiftAddr, shiftData, shiftOut]
      at hconv hkeep ⊢ <;> split_ifs at hconv ⊢ <;> simp_all
  low := by
    intro hlow
    simp only [step_sclk]
    cases hshifts : s.state.shifts with
    | false =>
        rw [toggles_of_not_shifts hshifts, h.low hshifts]
        rfl
    | true =>
        obtain ⟨htick, hsclk⟩ := sequencer_leaves h hshifts hlow
        rw [h.not_toggles htick, hsclk]
        rfl

end Divider

/-! ## One frame -/

def addr (w : BitVec 24) : BitVec 16 :=
  w.extractLsb' 8 16

def data (w : BitVec 24) : BitVec 8 :=
  w.extractLsb' 0 8

/-- The master sends `w`, and `n` of its bits have been taken; those are the bits whose rising edge has
been made. -/
inductive Sends (w : BitVec 24) (s : State) : Nat → Prop
  | wait (hstate : s.state = .wait) (hack : s.ack = false) (haddr : s.dataAddrReg = addr w)
      (hdata : s.dataInReg = data w) (haddrCnt : s.addrCnt = 0) (hdataCnt : s.dataCnt = 0) :
      Sends w s 0
  | wrAd (k : Nat) (hk : k ≤ 15) (hstate : s.state = .wrAd) (hack : s.ack = false)
      (hmosi : s.mosi = (addr w).getMsbD k) (haddr : s.dataAddrReg = addr w <<< (k + 1))
      (hdata : s.dataInReg = data w) (haddrCnt : s.addrCnt = BitVec.ofNat 16 k)
      (hdataCnt : s.dataCnt = 0) :
      Sends w s (k + (s.sclk || s.sclk2x).toNat)
  | wrDa (k : Nat) (hk : k ≤ 7) (hstate : s.state = .wrDa) (hack : s.ack = false)
      (hmosi : s.mosi = (data w).getMsbD k) (hdata : s.dataInReg = data w <<< (k + 1))
      (haddrCnt : s.addrCnt = 0) (hdataCnt : s.dataCnt = BitVec.ofNat 8 k) :
      Sends w s (16 + k + (s.sclk || s.sclk2x).toNat)
  | done (hstate : s.state = .done) (haddrCnt : s.addrCnt = 0) (hdataCnt : s.dataCnt = 0) :
      Sends w s 24

/-- What an edge of the clock does to a frame. -/
inductive FrameStep (w : BitVec 24) (s s' : State) (n : Nat) : Prop
  | keeps (hsteady : s.sclk = true ∨ s'.sclk = false) (hnext : Sends w s' n)
  | rises (hlow : s.sclk = false) (hhigh : s'.sclk = true) (hmosi : s'.mosi = w.getMsbD n)
      (hnext : Sends w s' (n + 1))
  | ends (hn : n = 24) (hstate : s.state = .done) (hidle : s'.state = .idle)
      (haddrCnt : s'.addrCnt = 0) (hdataCnt : s'.dataCnt = 0)

section Frame

variable {w : BitVec 24} {s : State} {p : Ports} {n : Nat}

theorem getMsbD_addr {k : Nat} (hk : k ≤ 15) : (addr w).getMsbD k = w.getMsbD k := by
  simp only [addr, BitVec.getMsbD]
  grind

theorem getMsbD_data {k : Nat} (hk : k ≤ 7) : (data w).getMsbD k = w.getMsbD (16 + k) := by
  simp only [data, BitVec.getMsbD]
  grind

theorem Sends.le (h : Sends w s n) : n ≤ 24 := by
  have hbit : (s.sclk || s.sclk2x).toNat ≤ 1 := Bool.toNat_le _
  cases h <;> omega

theorem Sends.ne_idle (h : Sends w s n) : s.state ≠ .idle := by
  cases h <;> simp_all

/-- A cycle that is not a tick leaves the sequencer where it is. -/
theorem sequencer_shifting (hshifts : s.state.shifts = true) (hquiet : s.sclk2x = false) :
    sequencer s p = s := by
  cases hstate : s.state <;> simp_all [Phase.shifts, sequencer]

/-- In an odd half of the clock neither. -/
theorem sequencer_high (h : Clocked s) (hshifts : s.state.shifts = true) (hhigh : s.sclk = true) :
    sequencer s p = s := by
  have heven := h.evenEdges_eq
  cases hstate : s.state <;> simp_all [Phase.shifts, sequencer]

theorem Sends.of_eq {s' : State} (h : Sends w s n) (hstate : s'.state = s.state)
    (hack : s'.ack = s.ack) (hmosi : s'.mosi = s.mosi) (haddr : s'.dataAddrReg = s.dataAddrReg)
    (hdata : s'.dataInReg = s.dataInReg) (haddrCnt : s'.addrCnt = s.addrCnt)
    (hdataCnt : s'.dataCnt = s.dataCnt)
    (htaken : s.state.shifts = true → (s'.sclk || s'.sclk2x) = (s.sclk || s.sclk2x)) :
    Sends w s' n := by
  cases h with
  | wait h1 h2 h3 h4 h5 h6 =>
      exact .wait (hstate.trans h1) (hack.trans h2) (haddr.trans h3) (hdata.trans h4)
        (haddrCnt.trans h5) (hdataCnt.trans h6)
  | wrAd k hk h1 h2 h3 h4 h5 h6 h7 =>
      rw [← htaken (by rw [h1]; rfl)]
      exact .wrAd k hk (hstate.trans h1) (hack.trans h2) (hmosi.trans h3) (haddr.trans h4)
        (hdata.trans h5) (haddrCnt.trans h6) (hdataCnt.trans h7)
  | wrDa k hk h1 h2 h3 h4 h5 h6 =>
      rw [← htaken (by rw [h1]; rfl)]
      exact .wrDa k hk (hstate.trans h1) (hack.trans h2) (hmosi.trans h3) (hdata.trans h4)
        (haddrCnt.trans h5) (hdataCnt.trans h6)
  | done h1 h2 h3 =>
      exact .done (hstate.trans h1) (haddrCnt.trans h2) (hdataCnt.trans h3)

/-- The bit on the line, once SCLK has risen. -/
theorem Sends.rises {t : State} (h : Sends w s n) (hshifts : s.state.shifts = true)
    (hlow : (s.sclk || s.sclk2x) = false) (hstate : t.state = s.state) (hack : t.ack = s.ack)
    (hmosi : t.mosi = s.mosi) (haddr : t.dataAddrReg = s.dataAddrReg)
    (hdata : t.dataInReg = s.dataInReg) (haddrCnt : t.addrCnt = s.addrCnt)
    (hdataCnt : t.dataCnt = s.dataCnt) (hhigh : t.sclk = true) :
    t.mosi = w.getMsbD n ∧ Sends w t (n + 1) := by
  cases h with
  | wait h1 => simp [h1, Phase.shifts] at hshifts
  | done h1 => simp [h1, Phase.shifts] at hshifts
  | wrAd k hk h1 h2 h3 h4 h5 h6 h7 =>
      have hnext : k + (s.sclk || s.sclk2x).toNat + 1 = k + (t.sclk || t.sclk2x).toNat := by
        simp [hlow, hhigh]
      rw [hnext]
      refine ⟨?_, .wrAd k hk (hstate.trans h1) (hack.trans h2) (hmosi.trans h3) (haddr.trans h4)
        (hdata.trans h5) (haddrCnt.trans h6) (hdataCnt.trans h7)⟩
      rw [hmosi, h3, getMsbD_addr hk, hlow]
      rfl
  | wrDa k hk h1 h2 h3 h4 h5 h6 =>
      have hnext : 16 + k + (s.sclk || s.sclk2x).toNat + 1 =
          16 + k + (t.sclk || t.sclk2x).toNat := by
        simp [hlow, hhigh]
      rw [hnext]
      refine ⟨?_, .wrDa k hk (hstate.trans h1) (hack.trans h2) (hmosi.trans h3) (hdata.trans h4)
        (haddrCnt.trans h5) (hdataCnt.trans h6)⟩
      rw [hmosi, h3, getMsbD_data hk, hlow]
      rfl

/-- A tick with SCLK low puts the next bit on the line. -/
theorem Sends.advance (h : Sends w s n) (hc : Clocked s) (hshifts : s.state.shifts = true)
    (htick : s.sclk2x = true) (hlow : s.sclk = false) : Sends w (step s p) n := by
  have heven : evenEdges s = true := by
    rw [hc.evenEdges_eq, hlow]
    rfl
  have htaken : (s.sclk || s.sclk2x) = true := by
    simp [htick]
  have hnone : ((step s p).sclk || (step s p).sclk2x) = false := by
    simp [hc.not_toggles htick, hlow, lastDiv, hc.sclk2x htick]
  cases h with
  | wait h1 => simp [h1, Phase.shifts] at hshifts
  | done h1 => simp [h1, Phase.shifts] at hshifts
  | wrAd k hk h1 h2 h3 h4 h5 h6 h7 =>
      have hmsb : (addr w <<< (k + 1)).msb = (addr w).getMsbD (k + 1) := BitVec.msb_shiftLeft
      by_cases hlast : k < 15
      · have hlt : s.addrCnt < 15 := by
          rw [h6]
          bv_omega
        have hnext : k + (s.sclk || s.sclk2x).toNat =
            k + 1 + ((step s p).sclk || (step s p).sclk2x).toNat := by
          rw [htaken, hnone]
          rfl
        rw [hnext]
        refine .wrAd (k + 1) hlast ?_ ?_ ?_ ?_ ?_ ?_ ?_ <;>
          simp only [step, sequencer, h1, htick, heven, hlt, shiftAddr, Bool.and_self, if_true]
        · exact h2
        · rw [h4, hmsb]
        · rw [h4, ← BitVec.shiftLeft_add]
        · exact h5
        · rw [h6]
          bv_omega
        · exact h7
      · have hge : ¬s.addrCnt < 15 := by
          rw [h6]
          bv_omega
        have hk15 : k = 15 := by omega
        have hnext : k + (s.sclk || s.sclk2x).toNat =
            16 + 0 + ((step s p).sclk || (step s p).sclk2x).toNat := by
          rw [htaken, hnone, hk15]
          rfl
        rw [hnext]
        refine .wrDa 0 (by decide) ?_ ?_ ?_ ?_ ?_ ?_ <;>
          simp only [step, sequencer, h1, htick, heven, hge, shiftData, Bool.and_self, if_true,
            if_false]
        · exact h2
        · rw [h5]
          rfl
        · rw [h5]
        · exact h7
  | wrDa k hk h1 h2 h3 h4 h5 h6 =>
      have hmsb : (data w <<< (k + 1)).msb = (data w).getMsbD (k + 1) := BitVec.msb_shiftLeft
      by_cases hlast : k < 7
      · have hlt : s.dataCnt < 7 := by
          rw [h6]
          bv_omega
        have hnext : 16 + k + (s.sclk || s.sclk2x).toNat =
            16 + (k + 1) + ((step s p).sclk || (step s p).sclk2x).toNat := by
          rw [htaken, hnone]
          rfl
        rw [hnext]
        refine .wrDa (k + 1) hlast ?_ ?_ ?_ ?_ ?_ ?_ <;>
          simp only [step, sequencer, h1, htick, heven, hlt, shiftData, Bool.and_self, if_true]
        · exact h2
        · rw [h4, hmsb]
        · rw [h4, ← BitVec.shiftLeft_add]
        · exact h5
        · rw [h6]
          bv_omega
      · have hge : ¬s.dataCnt < 7 := by
          rw [h6]
          bv_omega
        have hnext : 16 + k + (s.sclk || s.sclk2x).toNat = 24 := by
          rw [htaken, Bool.toNat_true]
          omega
        rw [hnext]
        refine .done ?_ ?_ ?_ <;>
          simp only [step, sequencer, h1, htick, heven, hge, Bool.and_self, if_true, if_false]
        exact h5

/-- While SCLK rests there is only the start of the shifting and the end of the frame. -/
theorem frameStep_resting (hc : Clocked s) (h : Sends w s n) (hshifts : s.state.shifts = false)
    (hreq : s.state = .wait → p.wrReq = true) : FrameStep w s (step s p) n := by
  have hlow : (step s p).sclk = false := by
    rw [step_sclk, toggles_of_not_shifts hshifts, hc.low hshifts]
    rfl
  cases h with
  | wait h1 h2 h3 h4 h5 h6 =>
      refine .keeps (.inr hlow) ?_
      have hwr := hreq h1
      by_cases hgo : s.sclk2x = true ∧ s.waitCnt = 2
      · have hnone : ((step s p).sclk || (step s p).sclk2x) = false := by
          rw [hlow, step_sclk2x, lastDiv, hc.sclk2x hgo.1]
          simp
        have hnext : 0 = 0 + ((step s p).sclk || (step s p).sclk2x).toNat := by
          rw [hnone]
          rfl
        rw [hnext]
        refine .wrAd 0 (by decide) ?_ ?_ ?_ ?_ ?_ ?_ ?_ <;>
          simp only [step, sequencer, h1, hgo, hwr, shiftAddr, beq_self_eq_true, if_true]
        · exact h2
        · rw [h3]
          rfl
        · rw [h3]
        · exact h4
        · exact h5
        · exact h6
      · obtain ⟨c, hstay⟩ : ∃ c, sequencer s p = { s with waitCnt := c } := by
          rw [not_and] at hgo
          by_cases htick : s.sclk2x = true
          · have hmore : (s.waitCnt == 2) = false := beq_eq_false_iff_ne.2 (hgo htick)
            refine ⟨s.waitCnt + 1, ?_⟩
            simp only [sequencer, h1, if_pos htick, hmore, if_false, Bool.false_eq_true]
          · have hkeep : sequencer s p = s := by
              simp only [sequencer, h1, if_neg htick]
            exact ⟨s.waitCnt, hkeep⟩
        refine .wait ?_ ?_ ?_ ?_ ?_ ?_ <;> simp only [step] <;> rw [hstay] <;> assumption
  | wrAd k hk h1 => simp [h1, Phase.shifts] at hshifts
  | wrDa k hk h1 => simp [h1, Phase.shifts] at hshifts
  | done h1 h2 h3 =>
      cases htick : s.sclk2x with
      | true =>
          refine .ends rfl h1 ?_ ?_ ?_ <;> simp [step, sequencer, h1, htick, h2, h3]
      | false =>
          refine .keeps (.inr hlow) (.done ?_ ?_ ?_) <;>
            simp [step, sequencer, h1, htick, h2, h3]

theorem frameStep (hc : Clocked s) (h : Sends w s n) (hreq : s.state = .wait → p.wrReq = true) :
    FrameStep w s (step s p) n := by
  cases hshifts : s.state.shifts with
  | false => exact frameStep_resting hc h hshifts hreq
  | true =>
      have hen : s.en = true := hc.en (by rintro hidle; simp [hidle, Phase.shifts] at hshifts)
      cases htick : s.sclk2x with
      | true =>
          have hsclk : (step s p).sclk = s.sclk := by
            rw [step_sclk, hc.not_toggles htick, Bool.xor_false]
          cases hlevel : s.sclk with
          | false =>
              exact .keeps (.inr (hsclk.trans hlevel)) (h.advance hc hshifts htick hlevel)
          | true =>
              have hkeep := sequencer_high (p := p) hc hshifts hlevel
              refine .keeps (.inl hlevel) (h.of_eq ?_ ?_ ?_ ?_ ?_ ?_ ?_ fun _ => ?_)
              case refine_8 => simp [hsclk, hlevel, -step_sclk]
              all_goals
                simp only [step, hkeep]
      | false =>
          have hkeep := sequencer_shifting (p := p) hshifts htick
          cases hlast : lastDiv s with
          | false =>
              have hsclk : (step s p).sclk = s.sclk := by
                simp [toggles, hlast]
              have hsclk2x : (step s p).sclk2x = s.sclk2x := by
                simp [hlast, htick]
              refine .keeps ?_ (h.of_eq ?_ ?_ ?_ ?_ ?_ ?_ ?_ fun _ => ?_)
              case refine_1 =>
                rw [hsclk]
                cases s.sclk <;> simp
              case refine_9 => rw [hsclk, hsclk2x]
              all_goals
                simp only [step, hkeep]
          | true =>
              have hsclk : (step s p).sclk = !s.sclk := by
                simp [toggles, hshifts, hlast]
              cases hlevel : s.sclk with
              | false =>
                  rw [hlevel] at hsclk
                  obtain ⟨hmosi, hnext⟩ := h.rises (t := step s p) hshifts
                    (by rw [hlevel, htick]; rfl) (by simp only [step, hkeep])
                    (by simp only [step, hkeep]) (by simp only [step, hkeep])
                    (by simp only [step, hkeep]) (by simp only [step, hkeep])
                    (by simp only [step, hkeep]) (by simp only [step, hkeep]) hsclk
                  exact .rises hlevel hsclk hmosi hnext
              | true =>
                  refine .keeps (.inl hlevel) (h.of_eq ?_ ?_ ?_ ?_ ?_ ?_ ?_ fun _ => ?_)
                  case refine_8 => simp [hlast, hen, hlevel]
                  all_goals
                    simp only [step, hkeep]

end Frame

end SpiMaster
end Fpga
end Sdr
