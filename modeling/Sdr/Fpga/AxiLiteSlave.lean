import Sdr.Fpga.CsrRegfile

/-!
# AxiLiteSlave — the AXI4-Lite port in front of the registers

Model of `fpga/rtl/ctrl/axi_lite_slave.v` with its register file.  A write needs its address and its
data, which may arrive in either order; it *fires* in the cycle that holds both, and the slave takes
no further address or data until the response has been accepted.  The handshake therefore leaves at
least two cycles without a fire between two fires (`Aged.three_le`), whatever the master does.
-/

namespace Sdr
namespace Fpga
namespace AxiLiteSlave

open CsrRegfile

/-! ## Registers and ports -/

structure State where
  awHold : Bool
  wHold : Bool
  awaddrHold : BitVec 12
  wdataHold : BitVec 32
  wstrbHold : BitVec 4
  bresp : BitVec 2
  bvalid : Bool
  rdAddr : BitVec 12
  rdata : BitVec 32
  rresp : BitVec 2
  rvalid : Bool
  csr : CsrRegfile.State

/-- The inputs of one cycle: the master's side of the five channels and the status lines. -/
structure Ports where
  awaddr : BitVec 32
  awvalid : Bool
  wdata : BitVec 32
  wstrb : BitVec 4
  wvalid : Bool
  bready : Bool
  araddr : BitVec 32
  arvalid : Bool
  rready : Bool
  status : Status

def resetState : State where
  awHold := false
  wHold := false
  awaddrHold := 0
  wdataHold := 0
  wstrbHold := 0
  bresp := 0
  bvalid := false
  rdAddr := 0
  rdata := 0
  rresp := 0
  rvalid := false
  csr := CsrRegfile.resetState

/-! ## Continuous assignments -/

def awready (s : State) : Bool :=
  !s.awHold && !s.bvalid

def wready (s : State) : Bool :=
  !s.wHold && !s.bvalid

def arready (s : State) : Bool :=
  !s.rvalid

def wrFire (s : State) : Bool :=
  s.awHold && s.wHold && !s.bvalid

/-- The write the register file is given. -/
def held (s : State) : Write where
  addr := s.awaddrHold
  data := s.wdataHold
  strb := s.wstrbHold

/-! ## The clocked block -/

/-- `always @(posedge clk)`; where the source assigns a register twice, the later one wins. -/
def step (s : State) (rst : Bool) (p : Ports) : State :=
  if rst then
    resetState
  else
    -- Address and data are each taken once, then held until the write fires.
    { awHold := if wrFire s then false else if awready s && p.awvalid then true else s.awHold
      wHold := if wrFire s then false else if wready s && p.wvalid then true else s.wHold
      awaddrHold :=
        if awready s && p.awvalid then p.awaddr.extractLsb' 0 12 else s.awaddrHold
      wdataHold := if wready s && p.wvalid then p.wdata else s.wdataHold
      wstrbHold := if wready s && p.wvalid then p.wstrb else s.wstrbHold
      -- The response: raised by the fire, lowered when it is accepted.
      bresp := if wrFire s then 0 else s.bresp
      bvalid := if wrFire s then true else if s.bvalid && p.bready then false else s.bvalid
      -- The read channel is independent of the writes.
      rdAddr := if arready s && p.arvalid then p.araddr.extractLsb' 0 12 else s.rdAddr
      rdata :=
        if arready s && p.arvalid then
          rdData s.csr.regs p.status (p.araddr.extractLsb' 0 12)
        else
          s.rdata
      rresp := if arready s && p.arvalid then 0 else s.rresp
      rvalid :=
        if arready s && p.arvalid then true
        else if s.rvalid && p.rready then false
        else s.rvalid
      csr := CsrRegfile.step s.csr rst (wrFire s) (held s) }

/-- The configuration write that fires in this cycle, if any. -/
def configWrite (s : State) : List Write :=
  if wrFire s && (held s).isConfig then [held s] else []

/-! ## Spacing of the writes -/

/-- Neither half of a write is held: nothing fires in this cycle. -/
def Idle (s : State) : Prop :=
  s.awHold = false ∧ s.wHold = false

/-- A change pulse is only seen in the cycle after a fire, while the response is pending, and the
soft reset pulse never comes without it. -/
structure Pulsed (s : State) : Prop where
  changed : s.csr.ddc0ConfigChanged = true → Idle s ∧ s.bvalid = true
  softReset : s.csr.softResetPulse = true → s.csr.ddc0ConfigChanged = true

theorem pulsed_resetState : Pulsed resetState where
  changed := by
    intro h
    cases h
  softReset := by
    intro h
    cases h

theorem wrFire_eq_false_of_idle {s : State} (h : Idle s) : wrFire s = false := by
  simp [wrFire, h.1]

theorem step_changed (s : State) (p : Ports) :
    (step s false p).csr.ddc0ConfigChanged = (wrFire s && (held s).isConfig) := by
  cases hfire : wrFire s with
  | false =>
      simp [step, hfire, step_idle]
  | true =>
      simp [step, hfire, step_write_changed]

theorem step_regs (s : State) (p : Ports) :
    (step s false p).csr.regs = s.csr.regs.applyAll (configWrite s) := by
  cases hfire : wrFire s with
  | false =>
      simp [step, hfire, step_idle, configWrite, Regs.applyAll]
  | true =>
      cases hconfig : (held s).isConfig with
      | false =>
          simp [step, hfire, configWrite, hconfig, step_write_regs, Regs.applyAll,
            Regs.apply_of_not_isConfig]
      | true =>
          simp [step, hfire, configWrite, hconfig, step_write_regs, Regs.applyAll]

theorem step_pulsed (s : State) (p : Ports) : Pulsed (step s false p) where
  changed := by
    intro h
    rw [step_changed] at h
    -- Only a fire raises the pulse, and it clears both halves and raises the response.
    have hfire : wrFire s = true := by
      cases hf : wrFire s with
      | false =>
          simp [hf] at h
      | true =>
          rfl
    simp [Idle, step, hfire]
  softReset := by
    intro h
    exact step_softReset_changed s.csr (wrFire s) (held s) h

/-- While the response is pending nothing is taken in, so the next cycle is idle. -/
theorem step_after_fire {s : State} (p : Ports) (hidle : Idle s) (hb : s.bvalid = true) :
    Idle (step s false p) := by
  simp [Idle, step, awready, wready, wrFire, hidle.1, hidle.2, hb]

/-- No pulse follows an idle cycle. -/
theorem step_after_quiet {s : State} (p : Ports) (hidle : Idle s) :
    (step s false p).csr.ddc0ConfigChanged = false := by
  rw [step_changed, wrFire_eq_false_of_idle hidle]
  rfl

/-- `age` cycles have passed since the slave last showed a pulse, the one right after it included. -/
structure Aged (age : Nat) (s : State) : Prop where
  pos : 1 ≤ age
  one : age = 1 → Idle s ∧ s.csr.ddc0ConfigChanged = false
  two : age = 2 → s.csr.ddc0ConfigChanged = false

theorem Pulsed.aged_one {s : State} (h : Pulsed s) (hc : s.csr.ddc0ConfigChanged = true)
    (p : Ports) : Aged 1 (step s false p) where
  pos := Nat.le_refl 1
  one := by
    intro _
    rcases h.changed hc with ⟨hidle, hb⟩
    exact ⟨step_after_fire p hidle hb, step_after_quiet p hidle⟩
  two := by
    intro h2
    cases h2

theorem Aged.succ {age : Nat} {s : State} (h : Aged age s) (p : Ports) :
    Aged (age + 1) (step s false p) where
  pos := by omega
  one := by
    intro h1
    have := h.pos
    omega
  two := by
    intro h2
    exact step_after_quiet p (h.one (by omega)).1

/-- The handshake: pulses are at least three cycles apart. -/
theorem Aged.three_le {age : Nat} {s : State} (h : Aged age s)
    (hc : s.csr.ddc0ConfigChanged = true) : 3 ≤ age := by
  have hpos := h.pos
  have hone : age ≠ 1 := by
    intro h1
    simp [(h.one h1).2] at hc
  have htwo : age ≠ 2 := by
    intro h2
    simp [h.two h2] at hc
  omega

end AxiLiteSlave
end Fpga
end Sdr
