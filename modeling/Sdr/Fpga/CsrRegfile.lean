import Mathlib.Data.List.Basic

/-!
# CsrRegfile — the control and status registers

Model of `fpga/rtl/ctrl/csr_regfile.v`.  `Regs` holds the configuration registers, `State` adds the
three one-cycle pulses, and `step` is the clocked block.  Everything a write can do to the
configuration is `Regs.apply`, so the configuration after a sequence of writes is a fold
(`Regs.applyAll`) and does not depend on when the writes arrive.
-/

namespace Sdr
namespace Fpga
namespace CsrRegfile

/-! ## Address map -/

inductive Register
  | coreId
  | coreVersion
  | control
  | adcStatus
  | adcPeak
  | adcRms
  | orCount
  | clipCount
  | clearCounts
  | adcTimestampL
  | adcTimestampH
  | adcDebugFlags
  | adcDvalidCount
  | adcCfgUpdateCount
  | ddc0Control
  | ddc0FreqWord
  | ddc0Decim
  | ddc0Gain
  | ddc0Samples
  | ddc0Overflow
  | ddc0FreqHzL
  | ddc0FreqHzH
  | ddc0IqRate
  | ddc0Bandwidth
  | ddc0GainDb
  deriving DecidableEq, Repr

namespace Register

def all : List Register :=
  [.coreId, .coreVersion, .control, .adcStatus, .adcPeak, .adcRms, .orCount, .clipCount,
    .clearCounts, .adcTimestampL, .adcTimestampH, .adcDebugFlags, .adcDvalidCount,
    .adcCfgUpdateCount, .ddc0Control, .ddc0FreqWord, .ddc0Decim, .ddc0Gain, .ddc0Samples,
    .ddc0Overflow, .ddc0FreqHzL, .ddc0FreqHzH, .ddc0IqRate, .ddc0Bandwidth, .ddc0GainDb]

def addr : Register → BitVec 12
  | .coreId => 0x000#12
  | .coreVersion => 0x004#12
  | .control => 0x008#12
  | .adcStatus => 0x00c#12
  | .adcPeak => 0x010#12
  | .adcRms => 0x014#12
  | .orCount => 0x018#12
  | .clipCount => 0x01c#12
  | .clearCounts => 0x020#12
  | .adcTimestampL => 0x024#12
  | .adcTimestampH => 0x028#12
  | .adcDebugFlags => 0x02c#12
  | .adcDvalidCount => 0x030#12
  | .adcCfgUpdateCount => 0x034#12
  | .ddc0Control => 0x100#12
  | .ddc0FreqWord => 0x104#12
  | .ddc0Decim => 0x108#12
  | .ddc0Gain => 0x10c#12
  | .ddc0Samples => 0x110#12
  | .ddc0Overflow => 0x114#12
  | .ddc0FreqHzL => 0x118#12
  | .ddc0FreqHzH => 0x11c#12
  | .ddc0IqRate => 0x120#12
  | .ddc0Bandwidth => 0x124#12
  | .ddc0GainDb => 0x128#12

/-- The registers whose write raises `ddc0_config_changed`: CONTROL and the writable DDC0 ones. -/
def isConfig : Register → Bool
  | .control | .ddc0Control | .ddc0FreqWord | .ddc0Decim | .ddc0Gain | .ddc0FreqHzL
  | .ddc0FreqHzH | .ddc0IqRate | .ddc0Bandwidth | .ddc0GainDb => true
  | _ => false

end Register

/-- The register a `case` on the address selects; `none` is its default branch. -/
def decode (addr : BitVec 12) : Option Register :=
  Register.all.find? (fun r => r.addr == addr)

@[simp] theorem decode_addr (r : Register) : decode r.addr = some r := by
  cases r <;> decide

theorem addr_of_decode {addr : BitVec 12} {r : Register} (h : decode addr = some r) :
    r.addr = addr := by
  simpa using List.find?_some h

/-! ## Registers and writes -/

structure Regs where
  control : BitVec 32
  ddc0Control : BitVec 32
  ddc0FreqWord : BitVec 32
  ddc0Decim : BitVec 32
  ddc0Gain : BitVec 32
  ddc0FrequencyHz : BitVec 64
  ddc0IqRate : BitVec 32
  ddc0Bandwidth : BitVec 32
  ddc0GainDb : BitVec 32
  deriving DecidableEq, Repr

/-- One write as the register file sees it: `wr_addr`, `wr_data`, `wr_strb`. -/
structure Write where
  addr : BitVec 12
  data : BitVec 32
  strb : BitVec 4
  deriving DecidableEq, Repr

def Regs.reset : Regs where
  control := 0
  ddc0Control := 0
  ddc0FreqWord := 0
  ddc0Decim := 1000
  ddc0Gain := 30
  ddc0FrequencyHz := 0
  ddc0IqRate := 250000
  ddc0Bandwidth := 12000
  ddc0GainDb := 0

/-- `if (wr_strb[lane]) reg[8*lane +: 8] <= wr_data[8*lane +: 8];` -/
def lane (strb : BitVec 4) (old new : BitVec 32) (index : Nat) : BitVec 8 :=
  if strb.getLsbD index then new.extractLsb' (8 * index) 8 else old.extractLsb' (8 * index) 8

/-- The four strobed bytes of a register write. -/
def strobed (strb : BitVec 4) (old new : BitVec 32) : BitVec 32 :=
  lane strb old new 3 ++ lane strb old new 2 ++ lane strb old new 1 ++ lane strb old new 0

/-- A word is the concatenation of its bytes. -/
theorem append_bytes (x : BitVec 32) :
    (x.extractLsb' 24 8 ++ x.extractLsb' 16 8 ++ x.extractLsb' 8 8 ++ x.extractLsb' 0 8 :
      BitVec 32) = x := by
  ext i hi
  simp only [BitVec.getElem_append, BitVec.getElem_extractLsb']
  split
  · rw [Nat.zero_add]
    exact BitVec.getLsbD_eq_getElem hi
  · split
    · rw [show 8 + (i - 8) = i by omega]
      exact BitVec.getLsbD_eq_getElem hi
    · split
      · rw [show 16 + (i - 8 - 8) = i by omega]
        exact BitVec.getLsbD_eq_getElem hi
      · rw [show 24 + (i - 8 - 8 - 8) = i by omega]
        exact BitVec.getLsbD_eq_getElem hi

@[simp] theorem strobed_all (old new : BitVec 32) : strobed 0b1111#4 old new = new := by
  exact append_bytes new

/-- What a write to a register does to the configuration; read-only and unmapped addresses, and
CLEAR_COUNTS, leave it as it is. -/
def Regs.write (r : Regs) (reg : Register) (strb : BitVec 4) (data : BitVec 32) : Regs :=
  match reg with
  | .control => { r with control := strobed strb r.control data }
  | .ddc0Control => { r with ddc0Control := strobed strb r.ddc0Control data }
  | .ddc0FreqWord => { r with ddc0FreqWord := strobed strb r.ddc0FreqWord data }
  | .ddc0Decim => { r with ddc0Decim := strobed strb r.ddc0Decim data }
  | .ddc0Gain => { r with ddc0Gain := strobed strb r.ddc0Gain data }
  | .ddc0FreqHzL =>
      { r with
        ddc0FrequencyHz :=
          r.ddc0FrequencyHz.extractLsb' 32 32 ++
            strobed strb (r.ddc0FrequencyHz.extractLsb' 0 32) data }
  | .ddc0FreqHzH =>
      { r with
        ddc0FrequencyHz :=
          strobed strb (r.ddc0FrequencyHz.extractLsb' 32 32) data ++
            r.ddc0FrequencyHz.extractLsb' 0 32 }
  | .ddc0IqRate => { r with ddc0IqRate := strobed strb r.ddc0IqRate data }
  | .ddc0Bandwidth => { r with ddc0Bandwidth := strobed strb r.ddc0Bandwidth data }
  | .ddc0GainDb => { r with ddc0GainDb := strobed strb r.ddc0GainDb data }
  | _ => r

def Regs.apply (r : Regs) (w : Write) : Regs :=
  match decode w.addr with
  | some reg => r.write reg w.strb w.data
  | none => r

/-- The configuration after a sequence of writes. -/
def Regs.applyAll (r : Regs) (ws : List Write) : Regs :=
  ws.foldl Regs.apply r

/-- The write raises `ddc0_config_changed`. -/
def Write.isConfig (w : Write) : Bool :=
  (decode w.addr).any Register.isConfig

theorem Regs.write_of_not_isConfig (r : Regs) {reg : Register} (h : reg.isConfig = false)
    (strb : BitVec 4) (data : BitVec 32) : r.write reg strb data = r := by
  cases reg <;> first | rfl | cases h

theorem Regs.apply_of_not_isConfig (r : Regs) {w : Write} (h : w.isConfig = false) :
    r.apply w = r := by
  unfold Write.isConfig at h
  unfold Regs.apply
  cases hdec : decode w.addr with
  | none =>
      rfl
  | some reg =>
      rw [hdec] at h
      exact r.write_of_not_isConfig h w.strb w.data

theorem Regs.applyAll_append (r : Regs) (ws vs : List Write) :
    r.applyAll (ws ++ vs) = (r.applyAll ws).applyAll vs := by
  simp [Regs.applyAll]

/-- Only a write to its own address changes `DDC0_CONTROL`. -/
theorem Regs.applyAll_ddc0Control (r : Regs) {ws : List Write}
    (h : ∀ w ∈ ws, w.addr ≠ Register.ddc0Control.addr) :
    (r.applyAll ws).ddc0Control = r.ddc0Control := by
  induction ws generalizing r with
  | nil =>
      rfl
  | cons w ws ih =>
      have happly : (r.apply w).ddc0Control = r.ddc0Control := by
        unfold Regs.apply
        cases hdec : decode w.addr with
        | none =>
            rfl
        | some reg =>
            -- The address decides the register, so another address is another register.
            have hne : reg ≠ .ddc0Control := by
              rintro rfl
              exact h w (by simp) (addr_of_decode hdec).symm
            cases reg <;> first | rfl | exact absurd rfl hne
      calc
        (r.applyAll (w :: ws)).ddc0Control = ((r.apply w).applyAll ws).ddc0Control := rfl
        _ = (r.apply w).ddc0Control := ih (r.apply w) (fun v hv => h v (by simp [hv]))
        _ = r.ddc0Control := happly

/-! ## Outputs -/

namespace Regs

def coreEnable (r : Regs) : Bool :=
  r.control.getLsbD 0

def adcOffsetBinary (r : Regs) : Bool :=
  r.control.getLsbD 2

def ddc0Enable (r : Regs) : Bool :=
  r.ddc0Control.getLsbD 0

def ddc0AdcChannel (r : Regs) : Bool :=
  r.ddc0Control.getLsbD 1

/-- A rate of zero is read as one. -/
def ddc0DecimRate (r : Regs) : BitVec 16 :=
  if r.ddc0Decim.extractLsb' 0 16 = 0 then 1 else r.ddc0Decim.extractLsb' 0 16

def ddc0GainShift (r : Regs) : BitVec 6 :=
  r.ddc0Gain.extractLsb' 0 6

def ddc0GainDbQ8 (r : Regs) : BitVec 16 :=
  r.ddc0GainDb.extractLsb' 0 16

end Regs

/-! ## The clocked block -/

structure State where
  regs : Regs
  softResetPulse : Bool
  clearCounts : Bool
  ddc0ConfigChanged : Bool
  deriving DecidableEq, Repr

def resetState : State where
  regs := Regs.reset
  softResetPulse := false
  clearCounts := false
  ddc0ConfigChanged := false

/-- `always @(posedge clk)`.  The pulses fall back to zero unless this write raises them. -/
def step (s : State) (rst wrEn : Bool) (w : Write) : State :=
  if rst then
    resetState
  else if wrEn then
    match decode w.addr with
    -- The soft reset bit raises its pulse whatever the strobes say.
    | some .control =>
        { regs := s.regs.write .control w.strb w.data
          softResetPulse := w.data.getLsbD 1
          clearCounts := false
          ddc0ConfigChanged := true }
    -- No strobe is looked at, and the configuration does not change.
    | some .clearCounts =>
        { regs := s.regs
          softResetPulse := false
          clearCounts := w.data.getLsbD 0
          ddc0ConfigChanged := false }
    | some reg =>
        { regs := s.regs.write reg w.strb w.data
          softResetPulse := false
          clearCounts := false
          ddc0ConfigChanged := reg.isConfig }
    | none =>
        { s with softResetPulse := false, clearCounts := false, ddc0ConfigChanged := false }
  else
    { s with softResetPulse := false, clearCounts := false, ddc0ConfigChanged := false }

theorem step_idle (s : State) (w : Write) :
    step s false false w =
      { s with softResetPulse := false, clearCounts := false, ddc0ConfigChanged := false } := rfl

theorem step_write_regs (s : State) (w : Write) :
    (step s false true w).regs = s.regs.apply w := by
  cases hdec : decode w.addr with
  | none =>
      simp [step, Regs.apply, hdec]
  | some reg =>
      cases reg <;> simp [step, Regs.apply, hdec, Regs.write]

theorem step_write_changed (s : State) (w : Write) :
    (step s false true w).ddc0ConfigChanged = w.isConfig := by
  cases hdec : decode w.addr with
  | none =>
      simp [step, Write.isConfig, hdec]
  | some reg =>
      cases reg <;> simp [step, Write.isConfig, hdec, Register.isConfig]

/-- The soft reset pulse never comes alone: only a CONTROL write raises it, with
`ddc0_config_changed`. -/
theorem step_softReset_changed (s : State) (wrEn : Bool) (w : Write)
    (h : (step s false wrEn w).softResetPulse = true) :
    (step s false wrEn w).ddc0ConfigChanged = true := by
  cases wrEn with
  | false =>
      cases h
  | true =>
      cases hdec : decode w.addr with
      | none =>
          simp [step, hdec] at h
      | some reg =>
          cases reg <;> simp [step, hdec] at h ⊢

/-! ## Reads -/

/-- The status inputs of the register file. -/
structure Status where
  adcLocked : Bool
  adcOr : Bool
  adcPeakAbs : BitVec 16
  adcRmsPower : BitVec 32
  adcOrCount : BitVec 32
  adcClipCount : BitVec 32
  adcTimestamp : BitVec 64
  adcDebugFlags : BitVec 32
  adcDvalidCount : BitVec 32
  adcCfgUpdateCount : BitVec 32
  ddc0SampleCount : BitVec 32
  ddc0OverflowCount : BitVec 32

def rdData (r : Regs) (status : Status) (addr : BitVec 12) : BitVec 32 :=
  match decode addr with
  | some .coreId => 0x53445231#32
  | some .coreVersion => 0x00010000#32
  | some .control => r.control
  | some .adcStatus =>
      0#29 ++ BitVec.ofBool status.adcOr ++ BitVec.ofBool status.adcLocked ++
        BitVec.ofBool r.coreEnable
  | some .adcPeak => 0#16 ++ status.adcPeakAbs
  | some .adcRms => status.adcRmsPower
  | some .orCount => status.adcOrCount
  | some .clipCount => status.adcClipCount
  | some .adcTimestampL => status.adcTimestamp.extractLsb' 0 32
  | some .adcTimestampH => status.adcTimestamp.extractLsb' 32 32
  | some .adcDebugFlags => status.adcDebugFlags
  | some .adcDvalidCount => status.adcDvalidCount
  | some .adcCfgUpdateCount => status.adcCfgUpdateCount
  | some .ddc0Control => r.ddc0Control
  | some .ddc0FreqWord => r.ddc0FreqWord
  | some .ddc0Decim => r.ddc0Decim
  | some .ddc0Gain => r.ddc0Gain
  | some .ddc0Samples => status.ddc0SampleCount
  | some .ddc0Overflow => status.ddc0OverflowCount
  | some .ddc0FreqHzL => r.ddc0FrequencyHz.extractLsb' 0 32
  | some .ddc0FreqHzH => r.ddc0FrequencyHz.extractLsb' 32 32
  | some .ddc0IqRate => r.ddc0IqRate
  | some .ddc0Bandwidth => r.ddc0Bandwidth
  | some .ddc0GainDb => r.ddc0GainDb
  -- CLEAR_COUNTS has no read case: it reads as the default.
  | some .clearCounts => 0
  | none => 0

end CsrRegfile
end Fpga
end Sdr
