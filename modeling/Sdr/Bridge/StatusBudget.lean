import Sdr.Bridge.IqDma
import Sdr.Bridge.ReachableControl

/-!
# StatusBudget — the status text fits wherever it is put

The status is one format string with thirty-four arguments.  The numbers of the hardware are bounded
by their types, those of the stored configuration by what the handler lets into it, and the three
strings by the arrays that hold them.  All at their widest the text has 1103 characters: it is never
cut off by a buffer, and stays below the 1200 bytes of a datagram.
-/

namespace Sdr
namespace Bridge

open Lib Lib.CString

/-! ## Everything that reaches the handler's state -/

/-- The calls of `sdr_control.h`, in any order: those of the control port, and those of the polling
loop. -/
inductive ControlCall
  | event (e : ControlEvent)
  | stopAll
  | forwardIqPacket (length : Nat) (sent : Bool)
  | buildStatusJson (hw : Hw) (payloadSize : Nat)

namespace Control

def call (control : Control) : ControlCall → Control
  | .event e => control.step e
  | .stopAll => Bridge.stopAll control
  | .forwardIqPacket length sent =>
      (sdrControlForwardIqPacket (some control) length sent).1.getD control
  | .buildStatusJson hw payloadSize => (sdrControlBuildStatusJson hw control payloadSize).1

def runCalls (calls : List ControlCall) : Control :=
  runFrom call sdrControlInit calls

end Control

/-- A state whose status text is short enough. -/
structure Reportable (control : Control) : Prop extends ValidControl control where
  filter : control.frontend.filter.length ≤ 19
  mode : control.rx.mode.length ≤ 11

theorem reportable_init : Reportable sdrControlInit where
  toValidControl := validControl_init
  filter := by decide
  mode := by decide

/-- A string that is copied into an array, or the one that was there. -/
theorem length_copied_le {stored : CString} {size : Nat} (h : stored.length ≤ size - 1)
    (found : Option CString) : ((found.map (copyString size)).getD stored).length ≤ size - 1 := by
  cases found with
  | none =>
      exact h
  | some text =>
      exact List.length_take_le _ _

theorem length_filter_handle {control : Control} (h : control.frontend.filter.length ≤ 19)
    (e : LineEvent) : (control.handle e).control.frontend.filter.length ≤ 19 := by
  rcases frontend_handle control e with hsame | ⟨requestId, houtcome⟩
  · rw [hsame]
    exact h
  · rw [houtcome]
    cases frontendSet control e.line requestId with
    | badAttenuator n hn hbad hcontrol hok =>
        rw [hcontrol]
        exact h
    | badLna hgood text htext hbad hcontrol hok =>
        rw [hcontrol]
        exact h
    | applied hgood hlna hcontrol hok =>
        rw [hcontrol]
        exact length_copied_le h _

theorem length_mode_handle {control : Control} (h : control.rx.mode.length ≤ 11) (e : LineEvent) :
    (control.handle e).control.rx.mode.length ≤ 11 := by
  rcases rx_handle control e with ⟨enabled, hrx⟩ | hrequest
  · rw [hrx]
    exact h
  · rw [(nextRx_eq_ok_iff.1 (nextRx_of_acceptedRx hrequest)).1]
    exact length_copied_le h _

theorem reportable_call (control : Control) (call : ControlCall) (h : Reportable control) :
    Reportable (control.call call) := by
  cases call with
  | event e =>
      cases e with
      | setPeerIp peerIp =>
          simp only [Control.call, Control.step, sdrControlSetPeerIp]
          repeat' split
          all_goals exact ⟨⟨h.rx, h.frontend⟩, h.filter, h.mode⟩
      | handleLine e =>
          exact ⟨⟨validTuning_handle h.rx e, validFrontend_handle h.frontend e⟩,
            length_filter_handle h.filter e, length_mode_handle h.mode e⟩
  | stopAll =>
      exact ⟨⟨⟨h.rx.streamId, h.rx.adcChannel, h.rx.min_le, h.rx.le_max, h.rx.rate,
        h.rx.decimation_mul_rate⟩, h.frontend⟩, h.filter, h.mode⟩
  | forwardIqPacket length sent =>
      simp only [Control.call, sdrControlForwardIqPacket]
      split_ifs
      all_goals exact ⟨⟨h.rx, h.frontend⟩, h.filter, h.mode⟩
  | buildStatusJson hw payloadSize =>
      exact ⟨⟨h.rx, h.frontend⟩, h.filter, h.mode⟩

theorem reportable_runCalls (calls : List ControlCall) : Reportable (Control.runCalls calls) :=
  runFrom_inductive (fun control call h => reportable_call control call h) reportable_init calls

/-! ## The widths of the arguments -/

theorem length_unsigned_le {width k : Nat} (hk : 0 < k) {value : BitVec width}
    (h : value.toNat < 10 ^ k) : (unsigned value).length ≤ k :=
  length_decimal_natCast_le hk h

theorem length_unsigned32_le (value : BitVec 32) : (unsigned value).length ≤ 10 :=
  length_unsigned_le (by decide) (value.isLt.trans (by decide))

theorem length_unsigned64_le (value : BitVec 64) : (unsigned value).length ≤ 20 :=
  length_unsigned_le (by decide) (value.isLt.trans (by decide))

theorem length_trueFalse_le (b : Bool) : (trueFalse b).length ≤ 5 := by
  cases b <;> decide

theorem length_roughDbfs_le (raw : BitVec 32) : (decimal (roughDbfsFromRaw raw)).length ≤ 4 := by
  have hite {p : Prop} [Decidable p] {m n : Int} (hm : (decimal m).length ≤ 4)
      (hn : (decimal n).length ≤ 4) : (decimal (if p then m else n)).length ≤ 4 := by
    split_ifs
    · exact hm
    · exact hn
  -- Ten levels, and the value below the last of them.
  unfold roughDbfsFromRaw
  iterate 10 refine hite (by decide) ?_
  decide

theorem length_statusText_le {control : Control} (h : Reportable control) (hw : Hw) :
    (statusText hw control).length ≤ 1103 := by
  have hchannel : (decimal control.rx.adcChannel).length ≤ 1 := by
    rcases h.rx.adcChannel with h | h <;> rw [h] <;> decide
  have hattenuator : (decimal control.frontend.attenuatorDb).length ≤ 2 := by
    rcases h.frontend.attenuatorDb with h | h | h | h <;> rw [h] <;> decide
  have hlna : control.frontend.lna.length ≤ 6 := by
    rcases h.frontend.lna with h | h <;> rw [h] <;> decide
  have hfrequency : (unsigned control.rx.frequencyHz).length ≤ 9 :=
    length_unsigned_le (by decide) (lt_of_le_of_lt h.rx.le_max (by decide))
  have hrate : (unsigned control.rx.iqSampleRateHz).length ≤ 7 := by
    rcases h.rx.rate with h | h | h | h <;> rw [h] <;> decide
  have hfilter := h.filter
  have hmode := h.mode
  -- The pieces of the format have 789 characters; what is left is a sum of widths.
  unfold statusText
  simp only [String.reduceAppend, String.reduceToList, List.length_append, List.length_cons,
    List.length_nil, Nat.zero_add, Nat.reduceAdd]
  grind [length_unsigned32_le, length_unsigned64_le, length_trueFalse_le, length_roughDbfs_le]

/-! ## The status in its buffers -/

/-- The text of the next status of a state. -/
def nextStatusText (hw : Hw) (control : Control) : CString :=
  statusText hw { control with statusSeq := control.statusSeq + 1 }

theorem suffix_nextStatusText (hw : Hw) (control : Control) :
    "\x7d\x7d\n".toList <:+ nextStatusText hw control :=
  List.suffix_append _ _

theorem length_nextStatusText_le {control : Control} (h : Reportable control) (hw : Hw) :
    (nextStatusText hw control).length ≤ 1103 := by
  have hnext : Reportable { control with statusSeq := control.statusSeq + 1 } :=
    ⟨⟨h.rx, h.frontend⟩, h.filter, h.mode⟩
  exact length_statusText_le hnext hw

theorem sdrControlBuildStatusJson_whole {control : Control} (h : Reportable control) (hw : Hw)
    {payloadSize : Nat} (hsize : 1103 < payloadSize) :
    (sdrControlBuildStatusJson hw control payloadSize).2 = nextStatusText hw control := by
  have hlen := length_nextStatusText_le h hw
  rw [sdrControlBuildStatusJson, ← nextStatusText, fitted, List.take_of_length_le]
  omega

theorem getLast?_nextStatusText (hw : Hw) (control : Control) :
    (nextStatusText hw control).getLast? = some '\n' := by
  rcases suffix_nextStatusText hw control with ⟨before, hbefore⟩
  rw [← hbefore, List.getLast?_append]
  rfl

/-- The response to `get_status` holds the whole status but for its newline. -/
theorem cmdGetStatus_whole {control : Control} (h : Reportable control) (hw : Hw) (requestId : Int) :
    (cmdGetStatus hw control requestId).response =
      .status requestId (nextStatusText hw control).dropLast := by
  have hbuilt : (sdrControlBuildStatusJson hw control 1792).2 = nextStatusText hw control :=
    sdrControlBuildStatusJson_whole h hw (by decide)
  have hlast := getLast?_nextStatusText hw control
  have hne : (nextStatusText hw control).isEmpty = false := by
    cases htext : nextStatusText hw control with
    | nil =>
        rw [htext] at hlast
        cases hlast
    | cons c rest =>
        rfl
  rw [cmdGetStatus]
  simp only [hbuilt, hne, hlast, Bool.false_eq_true, if_false, if_true]

/-- What is put around the status is short. -/
theorem length_statusResponse_le {requestId : Int} (hid : (decimal requestId).length ≤ 11)
    {text : CString} (htext : text.length ≤ 1103) :
    (Response.status requestId text.dropLast).text.length ≤ 1150 := by
  generalize hcut : text.dropLast = cut
  have hlen : cut.length ≤ 1102 := by
    rw [← hcut, List.length_dropLast]
    omega
  have hunfold : (Response.status requestId cut).text =
      "\x7b\"request_id\":".toList ++ decimal requestId ++ ",\"ok\":true,\"status\":".toList ++
        cut ++ "\x7d\n".toList := rfl
  rw [hunfold]
  simp only [String.reduceToList, List.length_append, List.length_cons, List.length_nil]
  omega

/-- An id is a 32-bit number and has eleven characters at most. -/
theorem length_requestId_le {line : CString} {requestId : Int}
    (h : jsonRequestId line = some requestId) : (decimal requestId).length ≤ 11 := by
  -- Whatever number stands in the line, it was narrowed to an `int`.
  rcases Option.map_eq_some_iff.1 h with ⟨n, -, rfl⟩
  refine length_decimal_le (by decide) ?_
  have hlower := (BitVec.ofInt 32 n).le_toInt
  have hupper := (BitVec.ofInt 32 n).toInt_lt
  rw [toInt32]
  omega

/-- In every state that calls can reach, and whatever the hardware and the clock show, the status is
complete in either buffer, shorter than 1200 bytes, and whole in the response to `get_status`. -/
theorem status_whole (calls : List ControlCall) (hw : Hw) :
    let control := Control.runCalls calls
    let text := nextStatusText hw control
    (∀ payloadSize, payloadSize = 1600 ∨ payloadSize = 1792 →
        (sdrControlBuildStatusJson hw control payloadSize).2 = text) ∧
      text.length < 1200 ∧ "\x7d\x7d\n".toList <:+ text ∧
      ∀ line requestId, jsonRequestId line = some requestId → hasCmd line = true →
        commandOf line = .getStatus →
          (sdrControlHandleLine hw control line).response = .status requestId text.dropLast ∧
            (sdrControlHandleLine hw control line).responseText 2048 =
              (sdrControlHandleLine hw control line).response.text := by
  intro control text
  have hreportable : Reportable control := reportable_runCalls calls
  have hlen : text.length ≤ 1103 := length_nextStatusText_le hreportable hw
  refine ⟨?_, by omega, suffix_nextStatusText hw control, ?_⟩
  · intro payloadSize hsize
    exact sdrControlBuildStatusJson_whole hreportable hw (by omega)
  · intro line requestId hid hcmd hcommand
    have houtcome : sdrControlHandleLine hw control line = cmdGetStatus hw control requestId := by
      simp only [sdrControlHandleLine, hid, hcmd, hcommand, Bool.not_true, Bool.false_eq_true, if_false]
    have hresponse := cmdGetStatus_whole hreportable hw requestId
    rw [houtcome, Outcome.responseText, hresponse]
    refine ⟨rfl, ?_⟩
    rw [fitted, List.take_of_length_le]
    exact (length_statusResponse_le (length_requestId_le hid) hlen).trans (by decide)

/-- A request for the status, made before anything else. -/
theorem status_whole_firstRequest :
    let line := "\x7b\"request_id\":7,\"cmd\":\"get_status\"\x7d".toList
    (sdrControlBuildStatusJson okHw sdrControlInit 1600).2 = nextStatusText okHw sdrControlInit ∧
      (sdrControlHandleLine okHw sdrControlInit line).response =
        .status 7 (nextStatusText okHw sdrControlInit).dropLast := by
  intro line
  have hwhole := status_whole [] okHw
  exact ⟨hwhole.1 1600 (.inl rfl),
    (hwhole.2.2.2 line 7 (by decide +kernel) (by decide +kernel) (by decide +kernel)).1⟩

/-! ## The status datagram -/

/-- `sdr_hw_ac920_poll_status`: the state, `g_last_status_ms`, and the datagram when one is due.  The
clock is read again for the text. -/
def sdrHwAc920PollStatus (control : Control) (lastStatusMs : BitVec 64) (intervalMs : BitVec 32)
    (nowMs : BitVec 64) (hw : Hw) : Control × BitVec 64 × Option CString :=
  let intervalMs := if intervalMs = 0 then 1000 else intervalMs
  if nowMs - lastStatusMs < intervalMs.setWidth 64 then (control, lastStatusMs, none)
  else
    let built := sdrControlBuildStatusJson hw control 1600
    (built.1, nowMs, if built.2.isEmpty then none else some built.2)

/-- What is sent is a whole status, and keeps to the size of a datagram. -/
theorem datagram_of_poll (calls : List ControlCall) (lastStatusMs : BitVec 64)
    (intervalMs : BitVec 32) (nowMs : BitVec 64) (hw : Hw) {payload : CString}
    (h : (sdrHwAc920PollStatus (Control.runCalls calls) lastStatusMs intervalMs nowMs hw).2.2 =
      some payload) :
    payload = nextStatusText hw (Control.runCalls calls) ∧ payload.length < 1200 := by
  have hreportable := reportable_runCalls calls
  have hbuilt : (sdrControlBuildStatusJson hw (Control.runCalls calls) 1600).2 =
      nextStatusText hw (Control.runCalls calls) :=
    sdrControlBuildStatusJson_whole hreportable hw (by decide)
  have hpayload : nextStatusText hw (Control.runCalls calls) = payload := by
    simp only [sdrHwAc920PollStatus, hbuilt] at h
    split_ifs at h
    all_goals exact Option.some.inj h
  have hlen := length_nextStatusText_le hreportable hw
  rw [hpayload] at hlen
  exact ⟨hpayload.symm, by omega⟩

end Bridge
end Sdr
