import Sdr.Bridge.Programming

/-!
# ReachableControl — what any input leaves of the handler's state

The control port is fed arbitrary text, and the handler finds its fields by substring search.
`ValidControl` is what holds of the stored configuration in every reachable state all the same: each
command checks what it stores, and a `set_rx` that is refused stores nothing.

`hello` and `set_frontend` are not so careful.  They store each field as soon as it is found, so a line
that is refused for a later field has changed the earlier ones; `StoresThenRefuses` says exactly which
lines do.
-/

namespace Sdr
namespace Bridge

open Lib

/-! ## Reachable states -/

/-- The calls that reach the handler's state, a line with the hooks' answers while it is handled. -/
inductive ControlEvent
  | setPeerIp (peerIp : Option CString)
  | handleLine (e : LineEvent)

namespace Control

def handle (control : Control) (e : LineEvent) : Outcome :=
  sdrControlHandleLine e.hw control e.line

def step (control : Control) : ControlEvent → Control
  | .setPeerIp peerIp => sdrControlSetPeerIp control peerIp
  | .handleLine e => (control.handle e).control

def run (es : List ControlEvent) : Control :=
  runFrom step sdrControlInit es

end Control

/-! ## Valid states -/

/-- A tuning that the receiver can be programmed with. -/
structure ValidTuning (rx : RxConfig) : Prop where
  streamId : rx.streamId = 0
  adcChannel : rx.adcChannel = 0 ∨ rx.adcChannel = 1
  min_le : 500000 ≤ rx.frequencyHz.toNat
  le_max : rx.frequencyHz.toNat ≤ 108000000
  rate : rx.iqSampleRateHz = 125000 ∨ rx.iqSampleRateHz = 250000 ∨ rx.iqSampleRateHz = 500000 ∨
    rx.iqSampleRateHz = 1000000
  decimation_mul_rate : rx.decimation.toNat * rx.iqSampleRateHz.toNat = 250000000

structure ValidFrontend (frontend : FrontendConfig) : Prop where
  attenuatorDb : frontend.attenuatorDb = 0 ∨ frontend.attenuatorDb = 10 ∨
    frontend.attenuatorDb = 20 ∨ frontend.attenuatorDb = 30
  lna : frontend.lna = "on".toList ∨ frontend.lna = "bypass".toList

structure ValidControl (control : Control) : Prop where
  rx : ValidTuning control.rx
  frontend : ValidFrontend control.frontend

theorem ValidRx.tuning {rx : RxConfig} (h : ValidRx rx) : ValidTuning rx where
  streamId := h.streamId
  adcChannel := h.adcChannel
  min_le := h.min_le
  le_max := h.le_max
  rate := h.rate
  decimation_mul_rate := by
    rw [h.decimation]
    exact sdrDecimationForRate_mul h.rate

theorem validControl_init : ValidControl sdrControlInit where
  rx :=
    { streamId := rfl
      adcChannel := .inl rfl
      min_le := by decide
      le_max := by decide
      rate := by decide
      decimation_mul_rate := by decide }
  frontend := ⟨by decide, .inr rfl⟩

/-! ## What a line can do to the front end and to `hello_seen` -/

/-- The line is a `hello` that names its version and its three ports, and the hardware takes the
peer. -/
structure HelloTaken (e : LineEvent) : Prop where
  request : (jsonRequestId e.line).isSome = true
  cmd : hasCmd e.line = true
  hello : commandOf e.line = .hello
  version : jsonFindNumber e.line "protocol_version" = some sdrProtocolVersion
  iqPort : (jsonFindNumber e.line "iq_port").isSome = true
  psdPort : (jsonFindNumber e.line "psd_port").isSome = true
  statusPort : (jsonFindNumber e.line "status_port").isSome = true
  setUdpPeer : e.hw.setUdpPeer = true

/-- The fields that a command may configure are as they were. -/
structure Unchanged (before after : Control) : Prop where
  udpPeer : after.udpPeer = before.udpPeer
  rx : after.rx = before.rx
  frontend : after.frontend = before.frontend
  helloSeen : after.helloSeen = before.helloSeen
  psdEnabled : after.psdEnabled = before.psdEnabled

theorem Unchanged.refl (control : Control) : Unchanged control control :=
  ⟨rfl, rfl, rfl, rfl, rfl⟩

/-- The branch that a line takes. -/
inductive Handled (control : Control) (e : LineEvent) : Prop
  | quiet (hother : (jsonRequestId e.line).isSome = true → hasCmd e.line = true →
        commandOf e.line ≠ .hello ∧ commandOf e.line ≠ .setFrontend)
      (h : Unchanged control (control.handle e).control)
  | hello (requestId : Int) (hid : jsonRequestId e.line = some requestId)
      (hcmd : hasCmd e.line = true) (hhello : commandOf e.line = .hello)
      (h : control.handle e = cmdHello e.hw control e.line requestId)
  | setFrontend (requestId : Int) (hid : jsonRequestId e.line = some requestId)
      (hcmd : hasCmd e.line = true) (hset : commandOf e.line = .setFrontend)
      (h : control.handle e = cmdSetFrontend control e.line requestId)
  | setRx (requestId : Int) (hset : commandOf e.line = .setRx)
      (h : control.handle e = cmdSetRx e.hw control e.line requestId)
  | setPsd (requestId : Int) (hset : commandOf e.line = .setPsd)
      (h : control.handle e = cmdSetPsd control e.line requestId)
  | stopAll (requestId : Int) (hstop : commandOf e.line = .stopAll)
      (h : control.handle e =
        { control := stopAll control, ops := stopAllOps, response := .stopped requestId })

theorem cmdGetStatus_unchanged (hw : Hw) (control : Control) (requestId : Int) :
    Unchanged control (cmdGetStatus hw control requestId).control := by
  unfold cmdGetStatus
  dsimp only
  split
  · exact ⟨rfl, rfl, rfl, rfl, rfl⟩
  · exact ⟨rfl, rfl, rfl, rfl, rfl⟩

theorem handled (control : Control) (e : LineEvent) : Handled control e := by
  cases hid : jsonRequestId e.line with
  | none =>
      refine .quiet (by simp [hid]) ?_
      simp only [Control.handle, sdrControlHandleLine, hid]
      exact Unchanged.refl control
  | some requestId =>
      cases hcmd : hasCmd e.line with
      | false =>
          refine .quiet (by simp [hcmd]) ?_
          simp only [Control.handle, sdrControlHandleLine, hid, hcmd]
          exact Unchanged.refl control
      | true =>
          have houtcome : control.handle e = sdrControlHandleLine e.hw control e.line := rfl
          simp only [sdrControlHandleLine, hid, hcmd, Bool.not_true, Bool.false_eq_true,
            if_false] at houtcome
          cases hcommand : commandOf e.line with
          | hello =>
              rw [hcommand] at houtcome
              exact .hello requestId hid hcmd hcommand houtcome
          | ping =>
              rw [hcommand] at houtcome
              exact .quiet (by simp [hcommand]) (houtcome ▸ Unchanged.refl control)
          | getStatus =>
              rw [hcommand] at houtcome
              exact .quiet (by simp [hcommand])
                (houtcome ▸ cmdGetStatus_unchanged e.hw control requestId)
          | setFrontend =>
              rw [hcommand] at houtcome
              exact .setFrontend requestId hid hcmd hcommand houtcome
          | setRx =>
              rw [hcommand] at houtcome
              exact .setRx requestId hcommand houtcome
          | setPsd =>
              rw [hcommand] at houtcome
              exact .setPsd requestId hcommand houtcome
          | stopAll =>
              rw [hcommand] at houtcome
              exact .stopAll requestId hcommand houtcome
          | unknown =>
              rw [hcommand] at houtcome
              exact .quiet (by simp [hcommand]) (houtcome ▸ Unchanged.refl control)

/-! ## The ways out of `set_frontend` -/

def AttenuatorStep (n : Int) : Prop :=
  n = 0 ∨ n = 10 ∨ n = 20 ∨ n = 30

instance (n : Int) : Decidable (AttenuatorStep n) :=
  inferInstanceAs (Decidable (_ ∨ _ ∨ _ ∨ _))

def LnaSetting (text : CString) : Prop :=
  text = "on".toList ∨ text = "bypass".toList

instance (text : CString) : Decidable (LnaSetting text) :=
  inferInstanceAs (Decidable (_ ∨ _))

/-- The attenuator setting once the line's own, if any, is stored. -/
def nextAttenuator (control : Control) (line : CString) : Int :=
  ((jsonFindNumber line "attenuator_db").map toInt32).getD control.frontend.attenuatorDb

inductive FrontendSet (control : Control) (line : CString) (requestId : Int) : Prop
  | badAttenuator (n : Int) (hn : jsonFindNumber line "attenuator_db" = some n)
      (hbad : ¬ AttenuatorStep n)
      (hcontrol : (cmdSetFrontend control line requestId).control = control)
      (hok : (cmdSetFrontend control line requestId).response.ok = false)
  | badLna (hgood : ∀ n, jsonFindNumber line "attenuator_db" = some n → AttenuatorStep n)
      (text : CString) (htext : jsonFindString line "lna" 24 = some text)
      (hbad : ¬ LnaSetting text)
      (hcontrol : (cmdSetFrontend control line requestId).control =
        { control with
          frontend := { control.frontend with attenuatorDb := nextAttenuator control line } })
      (hok : (cmdSetFrontend control line requestId).response.ok = false)
  | applied (hgood : ∀ n, jsonFindNumber line "attenuator_db" = some n → AttenuatorStep n)
      (hlna : ∀ text, jsonFindString line "lna" 24 = some text → LnaSetting text)
      (hcontrol : (cmdSetFrontend control line requestId).control =
        { control with
          frontend :=
            { attenuatorDb := nextAttenuator control line
              lna := ((jsonFindString line "lna" 24).map (copyString 12)).getD control.frontend.lna
              filter :=
                ((jsonFindString line "filter" 24).map (copyString 20)).getD
                  control.frontend.filter } })
      (hok : (cmdSetFrontend control line requestId).response.ok = true)

theorem any_bad_attenuator (number : Option Int) :
    number.any (fun n => !(n == 0 || n == 10 || n == 20 || n == 30)) = true ↔
      ∃ n, number = some n ∧ ¬ AttenuatorStep n := by
  cases number with
  | none =>
      simp
  | some n =>
      simp [AttenuatorStep, and_assoc]

theorem any_bad_lna (lna : Option CString) :
    lna.any (fun text => text != "on".toList && text != "bypass".toList) = true ↔
      ∃ text, lna = some text ∧ ¬ LnaSetting text := by
  cases lna with
  | none =>
      simp
  | some text =>
      simp [LnaSetting]

theorem frontendSet (control : Control) (line : CString) (requestId : Int) :
    FrontendSet control line requestId := by
  by_cases hnumber : ∃ n, jsonFindNumber line "attenuator_db" = some n ∧ ¬ AttenuatorStep n
  · rcases hnumber with ⟨n, hn, hbad⟩
    have hany := (any_bad_attenuator _).2 ⟨n, hn, hbad⟩
    refine .badAttenuator n hn hbad ?_ ?_
    · simp only [cmdSetFrontend, if_pos hany, refuse]
    · simp only [cmdSetFrontend, if_pos hany, refuse, Response.ok]
  · have hnot := fun h => hnumber ((any_bad_attenuator _).1 h)
    have hgood : ∀ n, jsonFindNumber line "attenuator_db" = some n → AttenuatorStep n := by
      intro n hn
      by_contra hbad
      exact hnumber ⟨n, hn, hbad⟩
    by_cases hlna : ∃ text, jsonFindString line "lna" 24 = some text ∧ ¬ LnaSetting text
    · rcases hlna with ⟨text, htext, hbad⟩
      have hany := (any_bad_lna _).2 ⟨text, htext, hbad⟩
      refine .badLna hgood text htext hbad ?_ ?_
      · simp only [cmdSetFrontend, if_neg hnot, if_pos hany, refuse, nextAttenuator]
      · simp only [cmdSetFrontend, if_neg hnot, if_pos hany, refuse, Response.ok]
    · have hnotLna := fun h => hlna ((any_bad_lna _).1 h)
      refine .applied hgood ?_ ?_ ?_
      · intro text htext
        by_contra hbad
        exact hlna ⟨text, htext, hbad⟩
      · simp only [cmdSetFrontend, if_neg hnot, if_neg hnotLna, nextAttenuator]
      · simp only [cmdSetFrontend, if_neg hnot, if_neg hnotLna, Response.ok]

/-! ## Every command keeps a valid state valid -/

theorem toInt32_of_attenuatorStep {n : Int} (h : AttenuatorStep n) : toInt32 n = n := by
  rcases h with rfl | rfl | rfl | rfl <;> decide

theorem copyString_of_lnaSetting {text : CString} (h : LnaSetting text) :
    copyString 12 text = text := by
  rcases h with rfl | rfl <;> decide

theorem attenuatorStep_next {control : Control} (h : ValidFrontend control.frontend)
    {line : CString} (hgood : ∀ n, jsonFindNumber line "attenuator_db" = some n → AttenuatorStep n) :
    AttenuatorStep (nextAttenuator control line) := by
  unfold nextAttenuator
  cases hn : jsonFindNumber line "attenuator_db" with
  | none =>
      exact h.attenuatorDb
  | some n =>
      have hstep := hgood n hn
      simp only [Option.map_some, Option.getD_some, toInt32_of_attenuatorStep hstep]
      exact hstep

theorem validFrontend_cmdSetFrontend {control : Control} (h : ValidFrontend control.frontend)
    (line : CString) (requestId : Int) :
    ValidFrontend (cmdSetFrontend control line requestId).control.frontend := by
  cases frontendSet control line requestId with
  | badAttenuator n hn hbad hcontrol hok =>
      rw [hcontrol]
      exact h
  | badLna hgood text htext hbad hcontrol hok =>
      rw [hcontrol]
      exact ⟨attenuatorStep_next h hgood, h.lna⟩
  | applied hgood hlna hcontrol hok =>
      rw [hcontrol]
      refine ⟨attenuatorStep_next h hgood, ?_⟩
      cases htext : jsonFindString line "lna" 24 with
      | none =>
          exact h.lna
      | some text =>
          have hsetting := hlna text htext
          simp only [Option.map_some, Option.getD_some, copyString_of_lnaSetting hsetting]
          exact hsetting

theorem frontend_cmdHello (hw : Hw) (control : Control) (line : CString) (requestId : Int) :
    (cmdHello hw control line requestId).control.frontend = control.frontend := by
  unfold cmdHello
  repeat' split
  all_goals rfl

theorem frontend_cmdSetRx (hw : Hw) (control : Control) (line : CString) (requestId : Int) :
    (cmdSetRx hw control line requestId).control.frontend = control.frontend := by
  unfold cmdSetRx
  repeat' split
  all_goals rfl

theorem frontend_cmdSetPsd (control : Control) (line : CString) (requestId : Int) :
    (cmdSetPsd control line requestId).control.frontend = control.frontend := by
  unfold cmdSetPsd
  split
  all_goals rfl

/-- Only `set_frontend` touches the front end. -/
theorem frontend_handle (control : Control) (e : LineEvent) :
    (control.handle e).control.frontend = control.frontend ∨
      ∃ requestId, control.handle e = cmdSetFrontend control e.line requestId := by
  cases handled control e with
  | quiet hother hsame =>
      exact .inl hsame.frontend
  | hello requestId hid hcmd hhello houtcome =>
      rw [houtcome]
      exact .inl (frontend_cmdHello e.hw control e.line requestId)
  | setFrontend requestId hid hcmd hset houtcome =>
      exact .inr ⟨requestId, houtcome⟩
  | setRx requestId hset houtcome =>
      rw [houtcome]
      exact .inl (frontend_cmdSetRx e.hw control e.line requestId)
  | setPsd requestId hset houtcome =>
      rw [houtcome]
      exact .inl (frontend_cmdSetPsd control e.line requestId)
  | stopAll requestId hstop houtcome =>
      rw [houtcome]
      exact .inl rfl

theorem validFrontend_handle {control : Control} (h : ValidFrontend control.frontend)
    (e : LineEvent) : ValidFrontend (control.handle e).control.frontend := by
  rcases frontend_handle control e with hsame | ⟨requestId, houtcome⟩
  · rw [hsame]
    exact h
  · rw [houtcome]
    exact validFrontend_cmdSetFrontend h e.line requestId

/-- What a line leaves of the stored stream, read off from what it can do on a board. -/
theorem rx_handle (control : Control) (e : LineEvent) :
    (∃ enabled, (control.handle e).control.rx = { control.rx with enabled := enabled }) ∨
      acceptedRx control e.line = some (control.handle e).control.rx := by
  let b : Board := { control := control, regs := Fpga.CsrRegfile.Regs.reset }
  have hsame : control.handle e = b.outcome e := rfl
  rw [hsame]
  cases lineEffect b e with
  | quiet hrequest hrx hwrites =>
      exact .inl ⟨control.rx.enabled, hrx⟩
  | stopped hrequest hrx hwrites =>
      exact .inl ⟨false, hrx⟩
  | started rx hrequest hdma hrx hwrites =>
      rw [hrx]
      exact .inr hrequest
  | failed rx hrequest hdma hrx hwrites =>
      exact .inl ⟨control.rx.enabled, hrx⟩

theorem validTuning_handle {control : Control} (h : ValidTuning control.rx) (e : LineEvent) :
    ValidTuning (control.handle e).control.rx := by
  rcases rx_handle control e with ⟨enabled, hrx⟩ | hrequest
  · rw [hrx]
    exact ⟨h.streamId, h.adcChannel, h.min_le, h.le_max, h.rate, h.decimation_mul_rate⟩
  · exact (acceptedRx_valid hrequest).tuning

theorem validControl_step (control : Control) (e : ControlEvent) (h : ValidControl control) :
    ValidControl (control.step e) := by
  cases e with
  | setPeerIp peerIp =>
      simp only [Control.step, sdrControlSetPeerIp]
      repeat' split
      all_goals exact ⟨h.rx, h.frontend⟩
  | handleLine e =>
      exact ⟨validTuning_handle h.rx e, validFrontend_handle h.frontend e⟩

theorem validControl_run (es : List ControlEvent) : ValidControl (Control.run es) :=
  runFrom_inductive (fun control e h => validControl_step control e h) validControl_init es

/-! ## How `hello_seen` is set -/

theorem helloSeen_cmdHello {hw : Hw} {control : Control} {line : CString} {requestId : Int}
    (hbefore : control.helloSeen = false)
    (h : (cmdHello hw control line requestId).control.helloSeen = true) :
    jsonFindNumber line "protocol_version" = some sdrProtocolVersion ∧
      (jsonFindNumber line "iq_port").isSome = true ∧
      (jsonFindNumber line "psd_port").isSome = true ∧
      (jsonFindNumber line "status_port").isSome = true ∧ hw.setUdpPeer = true := by
  unfold cmdHello at h
  by_cases hversion : jsonFindNumber line "protocol_version" = some sdrProtocolVersion
  · rw [if_neg (not_not.2 hversion)] at h
    cases hiq : jsonFindNumber line "iq_port" with
    | none =>
        simp [hiq, refuse, hbefore] at h
    | some iqPort =>
        cases hpsd : jsonFindNumber line "psd_port" with
        | none =>
            simp [hiq, hpsd, refuse, hbefore] at h
        | some psdPort =>
            cases hstatus : jsonFindNumber line "status_port" with
            | none =>
                simp [hiq, hpsd, hstatus, refuse, hbefore] at h
            | some statusPort =>
                cases hset : hw.setUdpPeer with
                | false =>
                    simp [hiq, hpsd, hstatus, hset, refuse, hbefore] at h
                | true =>
                    exact ⟨hversion, rfl, rfl, rfl, rfl⟩
  · rw [if_pos hversion] at h
    simp [refuse, hbefore] at h

theorem helloTaken_of_handle {control : Control} {e : LineEvent}
    (hbefore : control.helloSeen = false) (h : (control.handle e).control.helloSeen = true) :
    HelloTaken e := by
  have hkept (hsame : (control.handle e).control.helloSeen = control.helloSeen) : HelloTaken e := by
    rw [hsame, hbefore] at h
    exact absurd h (by decide)
  cases handled control e with
  | quiet hother hsame =>
      exact hkept hsame.helloSeen
  | hello requestId hid hcmd hhello houtcome =>
      rw [houtcome] at h
      rcases helloSeen_cmdHello hbefore h with ⟨hversion, hiq, hpsd, hstatus, hset⟩
      exact ⟨by simp [hid], hcmd, hhello, hversion, hiq, hpsd, hstatus, hset⟩
  | setFrontend requestId hid hcmd hset houtcome =>
      refine hkept ?_
      rw [houtcome]
      cases frontendSet control e.line requestId with
      | badAttenuator n hn hbad hcontrol hok => rw [hcontrol]
      | badLna hgood text htext hbad hcontrol hok => rw [hcontrol]
      | applied hgood hlna hcontrol hok => rw [hcontrol]
  | setRx requestId hset houtcome =>
      refine hkept ?_
      rw [houtcome]
      unfold cmdSetRx
      repeat' split
      all_goals rfl
  | setPsd requestId hset houtcome =>
      refine hkept ?_
      rw [houtcome]
      unfold cmdSetPsd
      split
      all_goals rfl
  | stopAll requestId hstop houtcome =>
      refine hkept ?_
      rw [houtcome]
      rfl

/-- Whatever calls reach the handler, the stored configuration is one that passed the checks, and
`hello_seen` is only ever set by a complete `hello` that the hardware took. -/
theorem reachable_valid (es : List ControlEvent) :
    ValidControl (Control.run es) ∧
      ∀ e, (Control.run es).helloSeen = false → ((Control.run es).step e).helloSeen = true →
        ∃ line, e = .handleLine line ∧ HelloTaken line := by
  refine ⟨validControl_run es, ?_⟩
  intro e hbefore hafter
  cases e with
  | setPeerIp peerIp =>
      have hkept : ((Control.run es).step (.setPeerIp peerIp)).helloSeen =
          (Control.run es).helloSeen := by
        simp only [Control.step, sdrControlSetPeerIp]
        repeat' split
        all_goals rfl
      rw [hkept, hbefore] at hafter
      exact absurd hafter (by decide)
  | handleLine line =>
      exact ⟨line, rfl, helloTaken_of_handle hbefore hafter⟩

/-! ## Refused lines -/

/-- A `hello` of the right version that is refused although it has stored something new: ports found
before the first one that is missing, or the whole peer when the hardware does not take it. -/
def HelloSpoils (control : Control) (e : LineEvent) : Prop :=
  jsonFindNumber e.line "protocol_version" = some sdrProtocolVersion ∧
    ∃ iqPort, jsonFindNumber e.line "iq_port" = some iqPort ∧
      ((jsonFindNumber e.line "psd_port" = none ∧
          BitVec.ofInt 16 iqPort ≠ control.udpPeer.iqPort) ∨
        ∃ psdPort, jsonFindNumber e.line "psd_port" = some psdPort ∧
          ((jsonFindNumber e.line "status_port" = none ∧
              ¬ (BitVec.ofInt 16 iqPort = control.udpPeer.iqPort ∧
                BitVec.ofInt 16 psdPort = control.udpPeer.psdPort)) ∨
            ∃ statusPort, jsonFindNumber e.line "status_port" = some statusPort ∧
              e.hw.setUdpPeer = false ∧
              ¬ (BitVec.ofInt 16 iqPort = control.udpPeer.iqPort ∧
                BitVec.ofInt 16 psdPort = control.udpPeer.psdPort ∧
                BitVec.ofInt 16 statusPort = control.udpPeer.statusPort ∧
                copyString 48 ((jsonFindString e.line "destination_ip" 48).getD control.peerIp) =
                  control.udpPeer.destinationIp)))

/-- A `set_frontend` that is refused for its `lna` although it has stored a new attenuator setting. -/
def FrontendSpoils (control : Control) (e : LineEvent) : Prop :=
  (∃ n, jsonFindNumber e.line "attenuator_db" = some n ∧ AttenuatorStep n ∧
      n ≠ control.frontend.attenuatorDb) ∧
    ∃ text, jsonFindString e.line "lna" 24 = some text ∧ ¬ LnaSetting text

/-- The line is one of the two. -/
def StoresThenRefuses (control : Control) (e : LineEvent) : Prop :=
  (jsonRequestId e.line).isSome = true ∧ hasCmd e.line = true ∧
    ((commandOf e.line = .hello ∧ HelloSpoils control e) ∨
      (commandOf e.line = .setFrontend ∧ FrontendSpoils control e))

/-- A refusal leaves the configuration as it was. -/
def RefusalKeeps (control : Control) (e : LineEvent) : Prop :=
  (control.handle e).response.ok = false → Unchanged control (control.handle e).control

theorem unchanged_peer_iff (control : Control) (peer : UdpPeer) :
    Unchanged control { control with udpPeer := peer } ↔
      peer.iqPort = control.udpPeer.iqPort ∧ peer.psdPort = control.udpPeer.psdPort ∧
        peer.statusPort = control.udpPeer.statusPort ∧
        peer.destinationIp = control.udpPeer.destinationIp := by
  constructor
  · intro h
    have hpeer : peer = control.udpPeer := h.udpPeer
    simp [hpeer]
  · rintro ⟨hiq, hpsd, hstatus, hip⟩
    have hpeer : peer = control.udpPeer := by
      cases peer
      simp_all
    rw [hpeer]
    exact Unchanged.refl control

theorem refusalKeeps_hello {control : Control} {e : LineEvent} {requestId : Int}
    (h : control.handle e = cmdHello e.hw control e.line requestId) :
    RefusalKeeps control e ↔ ¬ HelloSpoils control e := by
  unfold RefusalKeeps HelloSpoils
  rw [h]
  unfold cmdHello
  by_cases hversion : jsonFindNumber e.line "protocol_version" = some sdrProtocolVersion
  · rw [if_neg (not_not.2 hversion)]
    cases hiq : jsonFindNumber e.line "iq_port" with
    | none =>
        simp [hversion, refuse, Response.ok, Unchanged.refl]
    | some iqPort =>
        cases hpsd : jsonFindNumber e.line "psd_port" with
        | none =>
            simp [hversion, refuse, Response.ok, unchanged_peer_iff]
        | some psdPort =>
            cases hstatus : jsonFindNumber e.line "status_port" with
            | none =>
                simp [hversion, refuse, Response.ok, unchanged_peer_iff]
            | some statusPort =>
                cases hset : e.hw.setUdpPeer with
                | false =>
                    simp [hversion, refuse, Response.ok, unchanged_peer_iff]
                | true =>
                    simp [Response.ok]
  · rw [if_pos hversion]
    simp [hversion, refuse, Response.ok, Unchanged.refl]

theorem refusalKeeps_setFrontend {control : Control} {e : LineEvent} {requestId : Int}
    (h : control.handle e = cmdSetFrontend control e.line requestId) :
    RefusalKeeps control e ↔ ¬ FrontendSpoils control e := by
  unfold RefusalKeeps
  rw [h]
  cases frontendSet control e.line requestId with
  | badAttenuator n hn hbad hcontrol hok =>
      rw [hcontrol]
      constructor
      · rintro _ ⟨⟨m, hm, hstep, _⟩, _⟩
        rw [hn] at hm
        cases hm
        exact hbad hstep
      · intro _ _
        exact Unchanged.refl control
  | badLna hgood text htext hbad hcontrol hok =>
      rw [hcontrol, hok]
      constructor
      · rintro hkeeps ⟨⟨n, hn, hstep, hne⟩, _⟩
        have hsame := congrArg FrontendConfig.attenuatorDb (hkeeps rfl).frontend
        simp only [nextAttenuator, hn, Option.map_some, Option.getD_some,
          toInt32_of_attenuatorStep hstep] at hsame
        exact hne hsame
      · intro hkeeps _
        have hsame : nextAttenuator control e.line = control.frontend.attenuatorDb := by
          unfold nextAttenuator
          cases hn : jsonFindNumber e.line "attenuator_db" with
          | none =>
              rfl
          | some n =>
              by_contra hne
              rw [Option.map_some, Option.getD_some, toInt32_of_attenuatorStep (hgood n hn)] at hne
              exact hkeeps ⟨⟨n, hn, hgood n hn, hne⟩, text, htext, hbad⟩
        rw [hsame]
        exact Unchanged.refl control
  | applied hgood hlna hcontrol hok =>
      rw [hok]
      constructor
      · rintro _ ⟨_, text, htext, hbad⟩
        exact hbad (hlna text htext)
      · intro _ h
        exact absurd h (by decide)

/-- `set_rx` works on a copy until everything has succeeded. -/
theorem refusalKeeps_setRx {control : Control} {e : LineEvent} {requestId : Int}
    (h : control.handle e = cmdSetRx e.hw control e.line requestId) : RefusalKeeps control e := by
  unfold RefusalKeeps
  rw [h]
  unfold cmdSetRx
  repeat' split
  · intro hok
    exact absurd hok (by simp [Response.ok])
  · intro _
    exact Unchanged.refl control
  · intro hok
    exact absurd hok (by simp [Response.ok])
  · intro _
    exact Unchanged.refl control

theorem refusalKeeps_setPsd {control : Control} {e : LineEvent} {requestId : Int}
    (h : control.handle e = cmdSetPsd control e.line requestId) : RefusalKeeps control e := by
  unfold RefusalKeeps
  rw [h]
  unfold cmdSetPsd
  split
  · intro hok
    exact absurd hok (by simp [Response.ok])
  · intro _
    exact Unchanged.refl control

theorem refusalKeeps_iff (control : Control) (e : LineEvent) :
    RefusalKeeps control e ↔ ¬ StoresThenRefuses control e := by
  have hnever (hkeeps : RefusalKeeps control e) (hhello : commandOf e.line ≠ .hello)
      (hset : commandOf e.line ≠ .setFrontend) :
      RefusalKeeps control e ↔ ¬ StoresThenRefuses control e := by
    simp [StoresThenRefuses, hkeeps, hhello, hset]
  cases handled control e with
  | quiet hother hsame =>
      constructor
      · rintro _ ⟨hid, hcmd, hspoils⟩
        rcases hother hid hcmd with ⟨hhello, hset⟩
        rcases hspoils with ⟨h, _⟩ | ⟨h, _⟩
        · exact hhello h
        · exact hset h
      · intro _ _
        exact hsame
  | hello requestId hid hcmd hhello houtcome =>
      rw [refusalKeeps_hello houtcome]
      simp [StoresThenRefuses, hid, hcmd, hhello]
  | setFrontend requestId hid hcmd hset houtcome =>
      rw [refusalKeeps_setFrontend houtcome]
      simp [StoresThenRefuses, hid, hcmd, hset]
  | setRx requestId hset houtcome =>
      exact hnever (refusalKeeps_setRx houtcome) (by simp [hset]) (by simp [hset])
  | setPsd requestId hset houtcome =>
      exact hnever (refusalKeeps_setPsd houtcome) (by simp [hset]) (by simp [hset])
  | stopAll requestId hstop houtcome =>
      refine hnever ?_ (by simp [hstop]) (by simp [hstop])
      intro hok
      rw [houtcome] at hok
      exact absurd hok (by simp [Response.ok])

/-- In every reachable state and for every line, a refusal leaves the configuration as it was unless
the line is one of those that store before they are refused. -/
theorem refusal_keeps_iff (es : List ControlEvent) (e : LineEvent) :
    RefusalKeeps (Control.run es) e ↔ ¬ StoresThenRefuses (Control.run es) e :=
  refusalKeeps_iff (Control.run es) e

/-- A `hello` without its last two ports. -/
def helloWithoutPorts : LineEvent where
  line :=
    ("\x7b\"request_id\":1,\"cmd\":\"hello\",\"protocol_version\":1," ++
      "\"udp\":\x7b\"iq_port\":5000\x7d\x7d").toList
  hw := okHw

/-- It is refused, and the IQ port is the new one. -/
theorem not_refusalKeeps_helloWithoutPorts :
    ¬ ∀ (es : List ControlEvent) (e : LineEvent), RefusalKeeps (Control.run es) e := by
  intro h
  have hkeeps := h [] helloWithoutPorts
  have hok : ((Control.run []).handle helloWithoutPorts).response.ok = false := by decide +kernel
  have hport : ((Control.run []).handle helloWithoutPorts).control.udpPeer.iqPort ≠
      (Control.run []).udpPeer.iqPort := by decide +kernel
  exact hport (by rw [(hkeeps hok).udpPeer])

end Bridge
end Sdr
