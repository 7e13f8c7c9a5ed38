import Sdr.Lib.Machine
import Sdr.Bridge.SdrControl

/-!
# Programming — the register file under the control-line handler

The handler's register writes go to `csr_regfile` one by one, so a write sequence is also the
sequence of configurations the DDC passes through.  `lineEffect` says once what a line can do: leave
stream and registers alone, stop the stream, start a checked request, or program one and take it
back because the DMA did not start.  Every one of these keeps `DDC0_CONTROL` at zero from its first
write until the one that completes the configuration.
-/

namespace Sdr
namespace Bridge

open Lib
open Fpga.CsrRegfile

/-! ## The board -/

/-- The handler's state and the registers it drives. -/
structure Board where
  control : Control
  regs : Regs

/-- A control line, with the hooks' answers while it is handled. -/
structure LineEvent where
  line : CString
  hw : Hw

/-- A processor write: every byte strobe is set. -/
def writeOf : HwOp → Option Write
  | .writeReg offset value => some { addr := offset.setWidth 12, data := value, strb := 0b1111#4 }
  | _ => none

def writesOf (ops : List HwOp) : List Write :=
  ops.filterMap writeOf

namespace Board

def init : Board where
  control := sdrControlInit
  regs := Regs.reset

def outcome (b : Board) (e : LineEvent) : Outcome :=
  sdrControlHandleLine e.hw b.control e.line

def step (b : Board) (e : LineEvent) : Board where
  control := (b.outcome e).control
  regs := b.regs.applyAll (writesOf (b.outcome e).ops)

def run (es : List LineEvent) : Board :=
  runFrom step init es

/-- The registers after the first `k` writes of a line. -/
def regsAfter (b : Board) (e : LineEvent) (k : Nat) : Regs :=
  b.regs.applyAll ((writesOf (b.outcome e).ops).take k)

end Board

/-- Both enables are set: the DDC streams. -/
def Streaming (r : Regs) : Prop :=
  r.control.getLsbD 0 = true ∧ r.ddc0Control.getLsbD 0 = true

instance (r : Regs) : Decidable (Streaming r) :=
  inferInstanceAs (Decidable (_ ∧ _))

/-! ## Checked requests -/

/-- The request a line makes: a `set_rx` that passes every check, with the fields it does not name
taken from the stored configuration. -/
def acceptedRx (control : Control) (line : CString) : Option RxConfig :=
  if (jsonRequestId line).isSome ∧ hasCmd line = true ∧ commandOf line = .setRx ∧
      (jsonFindBool line "enable").getD true = true then
    (nextRx control.rx line).toOption
  else
    none

/-- What the checks of `cmd_set_rx` leave. -/
structure ValidRx (rx : RxConfig) : Prop where
  streamId : rx.streamId = 0
  adcChannel : rx.adcChannel = 0 ∨ rx.adcChannel = 1
  min_le : 500000 ≤ rx.frequencyHz.toNat
  le_max : rx.frequencyHz.toNat ≤ 108000000
  rate : rx.iqSampleRateHz = 125000 ∨ rx.iqSampleRateHz = 250000 ∨ rx.iqSampleRateHz = 500000 ∨
    rx.iqSampleRateHz = 1000000
  decimation : rx.decimation = sdrDecimationForRate rx.iqSampleRateHz
  enabled : rx.enabled = true

theorem supportedRate_iff (r : BitVec 32) :
    supportedRate r = true ↔ r = 125000 ∨ r = 250000 ∨ r = 500000 ∨ r = 1000000 := by
  simp [supportedRate, or_assoc]

/-- The configuration that a line makes of the stored one, before any check. -/
def candidateRx (stored : RxConfig) (line : CString) : RxConfig where
  streamId := ((jsonFindNumber line "stream_id").map toInt32).getD stored.streamId
  adcChannel := ((jsonFindNumber line "adc_channel").map toInt32).getD stored.adcChannel
  frequencyHz :=
    ((jsonFindNumber line "frequency_hz").map (BitVec.ofInt 64)).getD stored.frequencyHz
  iqSampleRateHz :=
    ((jsonFindNumber line "iq_sample_rate_hz").map (BitVec.ofInt 32)).getD stored.iqSampleRateHz
  bandwidthHz :=
    ((jsonFindNumber line "bandwidth_hz").map (BitVec.ofInt 32)).getD stored.bandwidthHz
  mode := ((jsonFindString line "mode" 24).map (copyString 12)).getD stored.mode
  enabled := true
  decimation :=
    sdrDecimationForRate
      (((jsonFindNumber line "iq_sample_rate_hz").map (BitVec.ofInt 32)).getD stored.iqSampleRateHz)

/-- The line names no sample format, as far as the scanner can tell, or the one there is. -/
def FormatOk (line : CString) : Prop :=
  jsonFindString line "sample_format" 24 = none ∨
    jsonFindString line "sample_format" 24 = some "SC16_LE".toList

theorem formatOk_iff (line : CString) :
    FormatOk line ↔
      (jsonFindString line "sample_format" 24).any (fun text => text != "SC16_LE".toList) = false := by
  unfold FormatOk
  cases jsonFindString line "sample_format" 24 with
  | none => simp
  | some text => simp

/-- The checks accept exactly the lines that make a valid configuration. -/
theorem nextRx_eq_ok_iff {stored next : RxConfig} {line : CString} :
    nextRx stored line = .ok next ↔
      next = candidateRx stored line ∧ ValidRx next ∧ FormatOk line := by
  rw [formatOk_iff]
  constructor
  · intro h
    unfold nextRx at h
    simp only [bind, Except.bind, pure, Except.pure, throw, throwThe, MonadExceptOf.throw] at h
    -- Every check throws in its failing branch, so one path through the checks is left.
    repeat' split at h
    all_goals try cases h
    -- What is left in context are the checks that passed, in the order of the source.
    rename_i hstream hchannel hfrequency hrate hformat
    refine ⟨rfl, ⟨by simpa using hstream, ?_, ?_, ?_, ?_, rfl, rfl⟩, by simpa using hformat⟩
    · by_contra hne
      push Not at hne
      exact hchannel hne
    · push Not at hfrequency
      exact Nat.le_of_not_lt hfrequency.1
    · push Not at hfrequency
      exact Nat.le_of_not_lt hfrequency.2
    · simpa [supportedRate_iff] using hrate
  · rintro ⟨rfl, hvalid, hformat⟩
    have hstream : ¬ (candidateRx stored line).streamId ≠ 0 := not_not.2 hvalid.streamId
    have hchannel : ¬ ((candidateRx stored line).adcChannel ≠ 0 ∧
        (candidateRx stored line).adcChannel ≠ 1) := by
      have hor := hvalid.adcChannel
      tauto
    have hfrequency : ¬ ((candidateRx stored line).frequencyHz < 500000 ∨
        (candidateRx stored line).frequencyHz > 108000000) := by
      rw [not_or]
      exact ⟨Nat.not_lt.2 hvalid.min_le, Nat.not_lt.2 hvalid.le_max⟩
    have hrate : ¬ (!supportedRate (candidateRx stored line).iqSampleRateHz) = true := by
      simp [(supportedRate_iff _).2 hvalid.rate]
    unfold nextRx
    simp only [bind, Except.bind, pure, Except.pure, throw, throwThe, MonadExceptOf.throw]
    refine (if_neg hstream).trans ((if_neg hchannel).trans ((if_neg hfrequency).trans
      ((if_neg hrate).trans (if_neg (Bool.eq_false_iff.1 hformat)))))

theorem nextRx_valid {stored next : RxConfig} {line : CString}
    (h : nextRx stored line = .ok next) : ValidRx next :=
  (nextRx_eq_ok_iff.1 h).2.1

theorem nextRx_of_acceptedRx {control : Control} {line : CString} {rx : RxConfig}
    (h : acceptedRx control line = some rx) : nextRx control.rx line = .ok rx := by
  unfold acceptedRx at h
  split at h
  · cases hnext : nextRx control.rx line with
    | error refusal =>
        rw [hnext] at h
        cases h
    | ok next =>
        rw [hnext] at h
        cases h
        rfl
  · cases h

theorem acceptedRx_valid {control : Control} {line : CString} {rx : RxConfig}
    (h : acceptedRx control line = some rx) : ValidRx rx :=
  nextRx_valid (nextRx_of_acceptedRx h)

/-! ## What a line can do -/

/-- A full write to a register of the register file. -/
def fullWrite (reg : Register) (value : BitVec 32) : Write where
  addr := reg.addr
  data := value
  strb := 0b1111#4

/-- `DDC0_CONTROL` of a configuration: the enable and the ADC channel. -/
def ddcControlWord (rx : RxConfig) : BitVec 32 :=
  if rx.adcChannel ≠ 0 then sdrDdcControlEnable ||| sdrDdcControlAdcChannel else sdrDdcControlEnable

/-- The writes of `program_rx_registers` between the first and the last, which both go to
`DDC0_CONTROL`. -/
def parameterWrites (rx : RxConfig) : List Write :=
  [fullWrite .control sdrControlSoftReset,
    fullWrite .clearCounts 1,
    fullWrite .ddc0FreqHzL (rx.frequencyHz.setWidth 32),
    fullWrite .ddc0FreqHzH ((rx.frequencyHz >>> 32).setWidth 32),
    fullWrite .ddc0FreqWord (sdrFreqWord rx.frequencyHz),
    fullWrite .ddc0IqRate rx.iqSampleRateHz,
    fullWrite .ddc0Decim rx.decimation,
    fullWrite .ddc0Bandwidth rx.bandwidthHz,
    fullWrite .ddc0Gain 30,
    fullWrite .ddc0GainDb 0,
    fullWrite .control sdrControlCoreEnable]

def programWrites (rx : RxConfig) : List Write :=
  fullWrite .ddc0Control 0 :: (parameterWrites rx ++ [fullWrite .ddc0Control (ddcControlWord rx)])

def stopWrites : List Write :=
  [fullWrite .ddc0Control 0, fullWrite .control 0]

theorem writesOf_started (rx : RxConfig) :
    writesOf (programRxRegisters rx ++ [.startIqDma]) = programWrites rx := rfl

theorem writesOf_failed (rx : RxConfig) :
    writesOf (programRxRegisters rx ++ [.startIqDma] ++ disableWrites) =
      programWrites rx ++ stopWrites := rfl

theorem writesOf_stopAllOps : writesOf stopAllOps = stopWrites := rfl

/-- Everything a line can do to the stored stream configuration and to the registers. -/
inductive LineEffect (b : Board) (e : LineEvent) : Prop
  | quiet (hrequest : acceptedRx b.control e.line = none)
      (hrx : (b.outcome e).control.rx = b.control.rx)
      (hwrites : writesOf (b.outcome e).ops = [])
  | stopped (hrequest : acceptedRx b.control e.line = none)
      (hrx : (b.outcome e).control.rx = { b.control.rx with enabled := false })
      (hwrites : writesOf (b.outcome e).ops = stopWrites)
  | started (rx : RxConfig) (hrequest : acceptedRx b.control e.line = some rx)
      (hdma : e.hw.startIqDma = true)
      (hrx : (b.outcome e).control.rx = rx)
      (hwrites : writesOf (b.outcome e).ops = programWrites rx)
  | failed (rx : RxConfig) (hrequest : acceptedRx b.control e.line = some rx)
      (hdma : e.hw.startIqDma = false)
      (hrx : (b.outcome e).control.rx = b.control.rx)
      (hwrites : writesOf (b.outcome e).ops = programWrites rx ++ stopWrites)

/-- An outcome that touches neither the stored stream nor the registers. -/
def Outcome.Quiet (o : Outcome) (control : Control) : Prop :=
  o.control.rx = control.rx ∧ writesOf o.ops = []

theorem cmdHello_quiet (hw : Hw) (control : Control) (line : CString) (requestId : Int) :
    (cmdHello hw control line requestId).Quiet control := by
  unfold cmdHello
  repeat' split
  all_goals exact ⟨rfl, rfl⟩

theorem cmdSetFrontend_quiet (control : Control) (line : CString) (requestId : Int) :
    (cmdSetFrontend control line requestId).Quiet control := by
  unfold cmdSetFrontend
  dsimp only
  repeat' split
  all_goals exact ⟨rfl, rfl⟩

theorem cmdSetPsd_quiet (control : Control) (line : CString) (requestId : Int) :
    (cmdSetPsd control line requestId).Quiet control := by
  unfold cmdSetPsd
  split
  all_goals exact ⟨rfl, rfl⟩

theorem cmdGetStatus_quiet (hw : Hw) (control : Control) (requestId : Int) :
    (cmdGetStatus hw control requestId).Quiet control := by
  unfold cmdGetStatus
  dsimp only
  split
  all_goals exact ⟨rfl, rfl⟩

theorem acceptedRx_eq_none {control : Control} {line : CString} (h : commandOf line ≠ .setRx) :
    acceptedRx control line = none := by
  simp [acceptedRx, h]

/-- `set_rx`: stop, refuse, start, or program and take back. -/
theorem lineEffect_setRx {b : Board} {e : LineEvent} {requestId : Int}
    (hid : jsonRequestId e.line = some requestId) (hcmd : hasCmd e.line = true)
    (hset : commandOf e.line = .setRx) : LineEffect b e := by
  have houtcome : b.outcome e = cmdSetRx e.hw b.control e.line requestId := by
    simp [Board.outcome, sdrControlHandleLine, hid, hcmd, hset]
  cases henable : (jsonFindBool e.line "enable").getD true with
  | false =>
      refine .stopped ?_ ?_ ?_
      · simp [acceptedRx, henable]
      · simp [houtcome, cmdSetRx, henable, stopAll]
      · simp [houtcome, cmdSetRx, henable, writesOf_stopAllOps]
  | true =>
      have hrequest : acceptedRx b.control e.line = (nextRx b.control.rx e.line).toOption := by
        simp [acceptedRx, hid, hcmd, hset, henable]
      cases hnext : nextRx b.control.rx e.line with
      | error refusal =>
          -- A refused request returns before the first register write.
          refine .quiet ?_ ?_ ?_
          · rw [hrequest, hnext]
            rfl
          · simp [houtcome, cmdSetRx, henable, hnext, refuse]
          · simp [houtcome, cmdSetRx, henable, hnext, refuse, writesOf]
      | ok rx =>
          have hsome : acceptedRx b.control e.line = some rx := by
            rw [hrequest, hnext]
            rfl
          cases hdma : e.hw.startIqDma with
          | false =>
              -- The registers were written before the DMA was tried.
              refine .failed rx hsome hdma ?_ ?_
              · simp [houtcome, cmdSetRx, henable, hnext, hdma, refuse]
              · simp only [houtcome, cmdSetRx, henable, hnext, hdma]
                exact writesOf_failed rx
          | true =>
              refine .started rx hsome hdma ?_ ?_
              · simp [houtcome, cmdSetRx, henable, hnext, hdma]
              · simp only [houtcome, cmdSetRx, henable, hnext, hdma]
                exact writesOf_started rx

theorem lineEffect (b : Board) (e : LineEvent) : LineEffect b e := by
  -- All commands but `set_rx` and `stop_all` leave stream and registers alone.
  have hquiet (ho : (b.outcome e).Quiet b.control) (hne : commandOf e.line ≠ .setRx) :
      LineEffect b e := .quiet (acceptedRx_eq_none hne) ho.1 ho.2
  cases hid : jsonRequestId e.line with
  | none =>
      refine .quiet (by simp [acceptedRx, hid]) ?_ ?_
      all_goals simp [Board.outcome, sdrControlHandleLine, hid, writesOf]
  | some requestId =>
      cases hcmd : hasCmd e.line with
      | false =>
          refine .quiet (by simp [acceptedRx, hcmd]) ?_ ?_
          all_goals simp [Board.outcome, sdrControlHandleLine, hid, hcmd, refuse, writesOf]
      | true =>
          have houtcome : b.outcome e = sdrControlHandleLine e.hw b.control e.line := rfl
          simp only [sdrControlHandleLine, hid, hcmd, Bool.not_true, Bool.false_eq_true,
            if_false] at houtcome
          cases hcommand : commandOf e.line with
          | hello =>
              rw [hcommand] at houtcome
              exact hquiet (houtcome ▸ cmdHello_quiet e.hw b.control e.line requestId)
                (by simp [hcommand])
          | ping =>
              rw [hcommand] at houtcome
              exact hquiet (houtcome ▸ ⟨rfl, rfl⟩) (by simp [hcommand])
          | getStatus =>
              rw [hcommand] at houtcome
              exact hquiet (houtcome ▸ cmdGetStatus_quiet e.hw b.control requestId)
                (by simp [hcommand])
          | setFrontend =>
              rw [hcommand] at houtcome
              exact hquiet (houtcome ▸ cmdSetFrontend_quiet b.control e.line requestId)
                (by simp [hcommand])
          | setRx =>
              exact lineEffect_setRx hid hcmd hcommand
          | setPsd =>
              rw [hcommand] at houtcome
              exact hquiet (houtcome ▸ cmdSetPsd_quiet b.control e.line requestId)
                (by simp [hcommand])
          | stopAll =>
              rw [hcommand] at houtcome
              refine .stopped (acceptedRx_eq_none (by simp [hcommand])) ?_ ?_
              · rw [houtcome]
                rfl
              · rw [houtcome]
                rfl
          | unknown =>
              rw [hcommand] at houtcome
              exact hquiet (houtcome ▸ ⟨rfl, rfl⟩) (by simp [hcommand])

/-! ## The registers between two writes -/

@[simp] theorem applyAll_nil (r : Regs) : r.applyAll [] = r := rfl

@[simp] theorem applyAll_fullWrite (r : Regs) (reg : Register) (value : BitVec 32)
    (ws : List Write) :
    r.applyAll (fullWrite reg value :: ws) = (r.write reg 0b1111#4 value).applyAll ws := by
  simp [Regs.applyAll, Regs.apply, fullWrite]

theorem not_streaming {r : Regs} (h : r.ddc0Control = 0) : ¬ Streaming r := by
  intro hs
  simp [Streaming, h] at hs

/-- Once `DDC0_CONTROL` is cleared it stays so for as long as no write goes to it. -/
theorem ddc0Control_after_clear (r : Regs) {ws : List Write}
    (hws : ∀ w ∈ ws, w.addr ≠ Register.ddc0Control.addr) {k : Nat} (hk : k ≠ 0) :
    (r.applyAll ((fullWrite .ddc0Control 0 :: ws).take k)).ddc0Control = 0 := by
  cases k with
  | zero =>
      exact absurd rfl hk
  | succ k =>
      rw [List.take_succ_cons, applyAll_fullWrite, Regs.applyAll_ddc0Control]
      · simp [Regs.write]
      · intro w hw
        exact hws w (List.mem_of_mem_take hw)

theorem stopWrites_take (r : Regs) {k : Nat} (hk : k ≠ 0) :
    (r.applyAll (stopWrites.take k)).ddc0Control = 0 := by
  refine ddc0Control_after_clear r ?_ hk
  intro w hw
  rw [List.mem_singleton.1 hw]
  decide

theorem parameterWrites_addr (rx : RxConfig) :
    ∀ w ∈ parameterWrites rx, w.addr ≠ Register.ddc0Control.addr := by
  simp [parameterWrites, fullWrite, Register.addr]

/-- Strictly inside `program_rx_registers` the DDC is off. -/
theorem programWrites_take (r : Regs) (rx : RxConfig) {k : Nat} (hk : k ≠ 0)
    (hlt : k < (programWrites rx).length) :
    (r.applyAll ((programWrites rx).take k)).ddc0Control = 0 := by
  -- The first `k` writes stop short of the last one, the only other to `DDC0_CONTROL`.
  have hlength : k ≤ (fullWrite .ddc0Control 0 :: parameterWrites rx).length := by
    simp [programWrites] at hlt ⊢
    omega
  rw [programWrites, ← List.cons_append, List.take_append_of_le_length hlength]
  exact ddc0Control_after_clear r (parameterWrites_addr rx) hk

/-- The registers hold a configuration. -/
structure Holds (r : Regs) (rx : RxConfig) : Prop where
  frequencyHz : r.ddc0FrequencyHz = rx.frequencyHz
  freqWord : r.ddc0FreqWord = sdrFreqWord rx.frequencyHz
  iqRate : r.ddc0IqRate = rx.iqSampleRateHz
  decim : r.ddc0Decim = rx.decimation
  bandwidth : r.ddc0Bandwidth = rx.bandwidthHz
  adcChannel : r.ddc0AdcChannel = decide (rx.adcChannel ≠ 0)

theorem append_halves (x : BitVec 64) :
    ((x >>> 32).setWidth 32 ++ x.setWidth 32 : BitVec 64) = x := by
  ext i hi
  simp only [BitVec.getElem_append, BitVec.getElem_setWidth, BitVec.getLsbD_ushiftRight]
  -- Bit `i` comes from the low half below 32 and from the shifted word above.
  split
  · exact BitVec.getLsbD_eq_getElem hi
  · rw [show 32 + (i - 32) = i by omega]
    exact BitVec.getLsbD_eq_getElem hi

theorem extract_low_half (x y : BitVec 32) : (x ++ y : BitVec 64).extractLsb' 0 32 = y := by
  exact BitVec.extractLsb'_append_eq_right

/-- What `program_rx_registers` leaves in the register file, whatever was there. -/
def programmed (rx : RxConfig) : Regs where
  control := sdrControlCoreEnable
  ddc0Control := ddcControlWord rx
  ddc0FreqWord := sdrFreqWord rx.frequencyHz
  ddc0Decim := rx.decimation
  ddc0Gain := 30
  ddc0FrequencyHz := rx.frequencyHz
  ddc0IqRate := rx.iqSampleRateHz
  ddc0Bandwidth := rx.bandwidthHz
  ddc0GainDb := 0

theorem applyAll_programWrites (r : Regs) (rx : RxConfig) :
    r.applyAll (programWrites rx) = programmed rx := by
  simp [programWrites, parameterWrites, programmed, Regs.write, extract_low_half, append_halves]

theorem ddcControlWord_bits (rx : RxConfig) :
    (ddcControlWord rx).getLsbD 0 = true ∧
      (ddcControlWord rx).getLsbD 1 = decide (rx.adcChannel ≠ 0) := by
  unfold ddcControlWord
  split
  · rename_i hchannel
    exact ⟨by decide, by simp [hchannel, sdrDdcControlEnable, sdrDdcControlAdcChannel]⟩
  · rename_i hchannel
    exact ⟨by decide, by simp [hchannel, sdrDdcControlEnable]⟩

theorem streaming_programmed (rx : RxConfig) : Streaming (programmed rx) := by
  refine ⟨?_, (ddcControlWord_bits rx).1⟩
  show sdrControlCoreEnable.getLsbD 0 = true
  decide

theorem holds_programmed (rx : RxConfig) : Holds (programmed rx) rx where
  frequencyHz := rfl
  freqWord := rfl
  iqRate := rfl
  decim := rfl
  bandwidth := rfl
  adcChannel := (ddcControlWord_bits rx).2

/-- Between two writes the registers are as they were before the line, or the DDC is off, or a
checked request is programmed in full. -/
theorem regsAfter_cases (b : Board) (e : LineEvent) (k : Nat) :
    b.regsAfter e k = b.regs ∨ (b.regsAfter e k).ddc0Control = 0 ∨
      ∃ rx, acceptedRx b.control e.line = some rx ∧ b.regsAfter e k = programmed rx := by
  -- Before the first write of the line nothing has changed yet.
  rcases Nat.eq_zero_or_pos k with rfl | hpos
  · exact .inl rfl
  have hk : k ≠ 0 := by omega
  unfold Board.regsAfter
  cases lineEffect b e with
  | quiet hrequest hrx hwrites =>
      rw [hwrites]
      simp
  | stopped hrequest hrx hwrites =>
      rw [hwrites]
      exact .inr (.inl (stopWrites_take b.regs hk))
  | started rx hrequest hdma hrx hwrites =>
      rw [hwrites]
      rcases Nat.lt_or_ge k (programWrites rx).length with hlt | hge
      · exact .inr (.inl (programWrites_take b.regs rx hk hlt))
      · refine .inr (.inr ⟨rx, hrequest, ?_⟩)
        rw [List.take_of_length_le hge, applyAll_programWrites]
  | failed rx hrequest hdma hrx hwrites =>
      -- Before, at and after the end of `program_rx_registers`: only at its end are both enables set.
      rw [hwrites, List.take_append, Regs.applyAll_append]
      rcases Nat.lt_trichotomy k (programWrites rx).length with hlt | heq | hgt
      · rw [Nat.sub_eq_zero_of_le (Nat.le_of_lt hlt), List.take_zero, applyAll_nil]
        exact .inr (.inl (programWrites_take b.regs rx hk hlt))
      · refine .inr (.inr ⟨rx, hrequest, ?_⟩)
        rw [heq, Nat.sub_self, List.take_zero, applyAll_nil, List.take_length,
          applyAll_programWrites]
      · exact .inr (.inl (stopWrites_take _ (by omega)))

/-! ## Every configuration that streams -/

/-- Some line of the run made the request. -/
def Accepted (es : List LineEvent) (rx : RxConfig) : Prop :=
  ∃ earlier e, earlier ++ [e] <+: es ∧ acceptedRx (Board.run earlier).control e.line = some rx

/-- The registers describe a request within the limits of the receiver. -/
structure Describes (r : Regs) (rx : RxConfig) : Prop where
  frequencyHz : r.ddc0FrequencyHz = rx.frequencyHz
  freqWord : (r.ddc0FreqWord.toNat : ℤ) = round ((rx.frequencyHz.toNat * 2 ^ 32 : ℚ) / 250000000)
  decim_mul_iqRate : r.ddc0Decim.toNat * r.ddc0IqRate.toNat = 250000000
  iqRate : r.ddc0IqRate = rx.iqSampleRateHz
  bandwidth : r.ddc0Bandwidth = rx.bandwidthHz
  adcChannel : r.ddc0AdcChannel = decide (rx.adcChannel = 1)
  min_le : 500000 ≤ rx.frequencyHz.toNat
  le_max : rx.frequencyHz.toNat ≤ 108000000

theorem describes_programmed {rx : RxConfig} (h : ValidRx rx) : Describes (programmed rx) rx where
  frequencyHz := rfl
  freqWord := sdrFreqWord_eq_round h.le_max
  decim_mul_iqRate := by
    show rx.decimation.toNat * rx.iqSampleRateHz.toNat = 250000000
    rw [h.decimation]
    exact sdrDecimationForRate_mul h.rate
  iqRate := rfl
  bandwidth := rfl
  adcChannel := by
    rw [(holds_programmed rx).adcChannel]
    rcases h.adcChannel with hzero | hone
    · simp [hzero]
    · simp [hone]
  min_le := h.min_le
  le_max := h.le_max

theorem Accepted.snoc {es : List LineEvent} {rx : RxConfig} (h : Accepted es rx) (e : LineEvent) :
    Accepted (es ++ [e]) rx := by
  rcases h with ⟨earlier, e', hprefix, hrequest⟩
  exact ⟨earlier, e', hprefix.trans (List.prefix_append es [e]), hrequest⟩

/-- One line further: between any two writes of the line. -/
theorem describes_line {es : List LineEvent}
    (hbefore : Streaming (Board.run es).regs → ∃ rx, Accepted es rx ∧ Describes (Board.run es).regs rx)
    (e : LineEvent) (k : Nat) (hs : Streaming ((Board.run es).regsAfter e k)) :
    ∃ rx, Accepted (es ++ [e]) rx ∧ Describes ((Board.run es).regsAfter e k) rx := by
  rcases regsAfter_cases (Board.run es) e k with hsame | hoff | ⟨rx, hrequest, hprog⟩
  · -- The stream that was running before the line still runs.
    rw [hsame] at hs ⊢
    rcases hbefore hs with ⟨rx, haccepted, hdescribes⟩
    exact ⟨rx, haccepted.snoc e, hdescribes⟩
  · exact absurd hs (not_streaming hoff)
  · rw [hprog]
    exact ⟨rx, ⟨es, e, List.prefix_rfl, hrequest⟩, describes_programmed (acceptedRx_valid hrequest)⟩

theorem run_snoc (es : List LineEvent) (e : LineEvent) :
    Board.run (es ++ [e]) = (Board.run es).step e := by
  exact runFrom_snoc Board.step Board.init es e

theorem describes_run (es : List LineEvent) (hs : Streaming (Board.run es).regs) :
    ∃ rx, Accepted es rx ∧ Describes (Board.run es).regs rx := by
  induction es using List.reverseRecOn with
  | nil =>
      exact absurd hs (by decide)
  | append_singleton es e ih =>
      -- A whole line is the last of its points between two writes.
      have hlast : (Board.run (es ++ [e])).regs =
          (Board.run es).regsAfter e (writesOf ((Board.run es).outcome e).ops).length := by
        rw [run_snoc, Board.regsAfter, List.take_length]
        rfl
      rw [hlast] at hs ⊢
      exact describes_line ih e _ hs

/-- The DDC never streams with a half-written configuration: after every single register write of
every run, both enables set mean that the registers describe one request that passed the checks of
`cmd_set_rx`. -/
theorem streams_one_request (es : List LineEvent) (e : LineEvent) (k : Nat)
    (hs : Streaming ((Board.run es).regsAfter e k)) :
    ∃ rx, Accepted (es ++ [e]) rx ∧ Describes ((Board.run es).regsAfter e k) rx := by
  exact describes_line (describes_run es) e k hs

/-! ### A stream is started, then retuned while the DMA is stuck -/

def okHw : Hw where
  setUdpPeer := true
  startIqDma := true
  millis := 0
  status :=
    { coreId := 0x53445231, coreVersion := 0x00010000, control := 0, adcStatus := 0, adcPeak := 0
      adcRms := 0, orCount := 0, clipCount := 0, adcTimestamp := 0, adcDebugFlags := 0
      adcDvalidCount := 0, adcCfgUpdateCount := 0, ddc0Samples := 0, ddc0Overflow := 0 }

def tuneLine : LineEvent where
  line :=
    ("\x7b\"request_id\":1,\"cmd\":\"set_rx\",\"adc_channel\":1,\"frequency_hz\":98500000," ++
      "\"iq_sample_rate_hz\":250000\x7d").toList
  hw := okHw

def stuckLine : LineEvent where
  line := "\x7b\"request_id\":2,\"cmd\":\"set_rx\",\"frequency_hz\":10000000\x7d".toList
  hw := { okHw with startIqDma := false }

theorem streams_one_request_stuckLine :
    Streaming ((Board.run [tuneLine]).regsAfter stuckLine 13) ∧
      ∃ rx, Accepted [tuneLine, stuckLine] rx ∧
        Describes ((Board.run [tuneLine]).regsAfter stuckLine 13) rx := by
  -- After all thirteen writes of the retune, before the two that take it back.
  have hs : Streaming ((Board.run [tuneLine]).regsAfter stuckLine 13) := by decide +kernel
  exact ⟨hs, streams_one_request [tuneLine] stuckLine 13 hs⟩

end Bridge
end Sdr
