import Sdr.Bridge.SdrControl
import Sdr.Lib.Machine

/-!
# IqDma — the DMA that takes IQ packets off the fabric

One buffer receives the packets.  `sdr_hw_start_iq_dma` submits a transfer into it, and the polling
loop submits the next one when it finds the transfer done and has forwarded the packet.  The poll
looks only at a transfer that is `armed`, so that nothing but a new `start` submits again after a
submission that failed: `armedOrRearms_iff` says that these failures are all that can go wrong.
-/

namespace Sdr
namespace Bridge

open Lib

/-! ## The driver's flags -/

/-- `g_iq_dma_ready`, `g_iq_dma_running` and `g_iq_dma_armed`. -/
structure IqDma where
  ready : Bool
  running : Bool
  armed : Bool
  deriving DecidableEq, Repr

/-- Static storage starts at zero. -/
def IqDma.unset : IqDma :=
  { ready := false, running := false, armed := false }

/-- What is asked of the DMA engine. -/
inductive DmaOp where
  | simpleTransfer
  | reset
  deriving DecidableEq, Repr

/-- A call that returns an `int`, with what it left of the flags and what it asked of the engine. -/
structure DmaReturn where
  dma : IqDma
  ops : List DmaOp
  rc : Int
  deriving DecidableEq, Repr

/-- What `sdr_hw_init` finds out: a configuration for the engine, whether its initialisation
succeeds, whether it was built with scatter-gather, and whether lwIP has a PCB for either port. -/
structure InitAnswers where
  lookupConfig : Bool
  cfgInitialize : Bool
  hasSg : Bool
  iqPcb : Bool
  statusPcb : Bool
  deriving DecidableEq, Repr

/-- `sdr_hw_init`. -/
def sdrHwInit (dma : IqDma) (found : InitAnswers) : DmaReturn :=
  if !found.lookupConfig then { dma := dma, ops := [], rc := -1 }
  else if !found.cfgInitialize then { dma := dma, ops := [], rc := -1 }
  else if found.hasSg then { dma := dma, ops := [], rc := -1 }
  else
    -- The engine counts as ready even when a PCB is missing.
    { dma := { ready := true, running := false, armed := false }
      ops := []
      rc := if found.iqPcb && found.statusPcb then 0 else -1 }

/-- `sdr_arm_iq_dma`; `submits` is whether `XAxiDma_SimpleTransfer` returns `XST_SUCCESS`. -/
def sdrArmIqDma (dma : IqDma) (submits : Bool) : DmaReturn :=
  if !dma.ready then { dma := dma, ops := [], rc := -1 }
  else if !submits then
    { dma := { dma with armed := false }, ops := [.simpleTransfer], rc := -1 }
  else
    { dma := { dma with armed := true }, ops := [.simpleTransfer], rc := 0 }

/-- `sdr_hw_start_iq_dma`. -/
def sdrHwStartIqDma (dma : IqDma) (submits : Bool) : DmaReturn :=
  if !dma.ready then { dma := dma, ops := [], rc := -1 }
  else
    -- The flag is set before the transfer is submitted, and stays when that fails.
    let dma := { dma with running := true }
    if dma.armed then { dma := dma, ops := [], rc := 0 } else sdrArmIqDma dma submits

/-- `sdr_hw_stop_iq_dma`; the reset is waited for. -/
def sdrHwStopIqDma (dma : IqDma) : IqDma × List DmaOp :=
  let dma := { dma with running := false, armed := false }
  (dma, if dma.ready then [.reset] else [])

/-! ## Forwarding a packet -/

/-- `SDR_IQ_PACKET_BYTES`. -/
def sdrIqPacketBytes : Nat := 64 + 1024

/-- `sdr_control_forward_iq_packet` of a packet that is there; `sent` is whether
`sdr_hw_udp_send_iq` returns zero, and it returns -1 otherwise. -/
def sdrControlForwardIqPacket (control : Option Control) (length : Nat) (sent : Bool) :
    Option Control × Int :=
  match control with
  | none => (none, -1)
  | some control =>
    if !control.helloSeen || !control.rx.enabled then (some control, 0)
    else if length ≠ sdrIqPacketBytes then
      (some { control with iqForwardErrors := control.iqForwardErrors + 1 }, -2)
    else if sent then
      (some { control with iqPacketsForwarded := control.iqPacketsForwarded + 1 }, 0)
    else
      (some { control with iqForwardErrors := control.iqForwardErrors + 1 }, -1)

/-- What one poll finds: the engine still busy, the datagram sent, the next transfer submitted. -/
structure PollAnswers where
  busy : Bool
  sent : Bool
  submits : Bool
  deriving DecidableEq, Repr

/-- `sdr_hw_ac920_poll_iq_dma`, with the control record it leaves. -/
def sdrHwAc920PollIqDma (dma : IqDma) (control : Option Control) (found : PollAnswers) :
    DmaReturn × Option Control :=
  -- Nothing armed is nothing to wait for, also when the last submission failed.
  if !dma.running || !dma.armed then ({ dma := dma, ops := [], rc := 0 }, control)
  else if found.busy then ({ dma := dma, ops := [], rc := 0 }, control)
  else
    let dma := { dma with armed := false }
    let forwarded := sdrControlForwardIqPacket control sdrIqPacketBytes found.sent
    -- `rc` of the forwarding is what the poll returns, unless the engine cannot be armed again.
    if dma.running then
      let armed := sdrArmIqDma dma found.submits
      ({ armed with rc := if armed.rc ≠ 0 then -1 else forwarded.2 }, forwarded.1)
    else
      ({ dma := dma, ops := [], rc := forwarded.2 }, forwarded.1)

/-! ## Runs -/

/-- The calls the main loop and the command handlers make after `sdr_hw_init`, each with what it
finds.  The control record of a poll may have changed in any way since the last one. -/
inductive DmaCall where
  | start (submits : Bool)
  | stop
  | poll (control : Option Control) (found : PollAnswers)
  deriving DecidableEq, Repr

/-- The flags after a call. -/
def IqDma.call (dma : IqDma) : DmaCall → IqDma
  | .start submits => (sdrHwStartIqDma dma submits).dma
  | .stop => (sdrHwStopIqDma dma).1
  | .poll control found => (sdrHwAc920PollIqDma dma control found).1.dma

/-- What a call asks of the engine. -/
def IqDma.asked (dma : IqDma) : DmaCall → List DmaOp
  | .start submits => (sdrHwStartIqDma dma submits).ops
  | .stop => (sdrHwStopIqDma dma).2
  | .poll control found => (sdrHwAc920PollIqDma dma control found).1.ops

/-- While the DMA runs, a transfer is outstanding or the next poll submits one. -/
def ArmedOrRearms (dma : IqDma) : Prop :=
  dma.running = true →
    dma.armed = true ∨ ∀ control found, .simpleTransfer ∈ dma.asked (.poll control found)

/-- A call that comes to `XAxiDma_SimpleTransfer` finds that it succeeds. -/
def SubmissionSucceeds (dma : IqDma) : DmaCall → Prop
  | .start submits => dma.ready = true → dma.armed = false → submits = true
  | .stop => True
  | .poll _ found =>
      dma.running = true → dma.armed = true → found.busy = false → found.submits = true

section Flags

variable {dma : IqDma}

/-- A poll that finds nothing armed does nothing, and so does every later one: the stream is silent
until the next `start`. -/
theorem call_poll_of_disarmed (h : dma.armed = false) (control : Option Control)
    (found : PollAnswers) :
    dma.call (.poll control found) = dma ∧ dma.asked (.poll control found) = [] := by
  simp [IqDma.call, IqDma.asked, sdrHwAc920PollIqDma, h]

theorem emits_polls_of_disarmed (h : dma.armed = false) (polls : List (Option Control × PollAnswers)) :
    emits IqDma.call IqDma.asked dma (polls.map fun poll => .poll poll.1 poll.2) = [] := by
  induction polls with
  | nil =>
      rfl
  | cons poll polls ih =>
      have hpoll := call_poll_of_disarmed h poll.1 poll.2
      simp only [List.map_cons, emits, hpoll.1, hpoll.2, ih, List.append_nil]

theorem armedOrRearms_iff_armed : ArmedOrRearms dma ↔ (dma.running = true → dma.armed = true) := by
  constructor
  · intro h hrunning
    rcases h hrunning with harmed | hasks
    · exact harmed
    · by_contra hdisarmed
      have hnothing := (call_poll_of_disarmed (Bool.eq_false_iff.2 hdisarmed) none
        { busy := false, sent := true, submits := true }).2
      simpa [hnothing] using hasks none { busy := false, sent := true, submits := true }
  · intro h hrunning
    exact .inl (h hrunning)

/-- `start` submits unless a transfer is outstanding already. -/
theorem call_start (h : dma.ready = true) (submits : Bool) :
    dma.call (.start submits) = { dma with running := true, armed := dma.armed || submits } := by
  cases harmed : dma.armed <;> cases submits <;>
    simp [IqDma.call, sdrHwStartIqDma, sdrArmIqDma, h, harmed]

theorem call_start_of_unready (h : dma.ready = false) (submits : Bool) :
    dma.call (.start submits) = dma := by
  simp [IqDma.call, sdrHwStartIqDma, h]

/-- A poll that finds the transfer done leaves the next one, when it was submitted. -/
theorem call_poll_of_done (hready : dma.ready = true) (hrunning : dma.running = true)
    (harmed : dma.armed = true) (control : Option Control) {found : PollAnswers}
    (hdone : found.busy = false) :
    dma.call (.poll control found) = { dma with armed := found.submits } := by
  cases hsubmits : found.submits <;>
    simp [IqDma.call, sdrHwAc920PollIqDma, sdrArmIqDma, hready, hrunning, harmed, hdone, hsubmits]

/-- A poll starts and stops nothing. -/
theorem call_poll_running (dma : IqDma) (control : Option Control) (found : PollAnswers) :
    (dma.call (.poll control found)).running = dma.running ∧
      (dma.call (.poll control found)).ready = dma.ready := by
  simp only [IqDma.call, sdrHwAc920PollIqDma, sdrArmIqDma]
  split_ifs
  all_goals exact ⟨rfl, rfl⟩

theorem call_poll_of_waiting (control : Option Control) {found : PollAnswers}
    (h : dma.running = false ∨ found.busy = true) : dma.call (.poll control found) = dma := by
  rcases h with h | h <;> simp [IqDma.call, sdrHwAc920PollIqDma, h]

/-- Only an engine that was initialised runs. -/
theorem ready_call (h : dma.running = true → dma.ready = true) (call : DmaCall) :
    (dma.call call).running = true → (dma.call call).ready = true := by
  cases call with
  | start submits =>
      cases hready : dma.ready with
      | false =>
          rw [call_start_of_unready hready]
          exact h
      | true =>
          rw [call_start hready]
          exact fun _ => hready
  | stop =>
      simp [IqDma.call, sdrHwStopIqDma]
  | poll control found =>
      rw [(call_poll_running dma control found).1, (call_poll_running dma control found).2]
      exact h

/-- From a state in which a running DMA is armed, a call leaves one exactly when it submits what it
comes to submit. -/
theorem armed_call_iff (hready : dma.running = true → dma.ready = true)
    (harmed : dma.running = true → dma.armed = true) (call : DmaCall) :
    ((dma.call call).running = true → (dma.call call).armed = true) ↔
      SubmissionSucceeds dma call := by
  cases call with
  | start submits =>
      cases hinit : dma.ready with
      | false =>
          rw [call_start_of_unready hinit]
          simpa [SubmissionSucceeds, hinit] using harmed
      | true =>
          rw [call_start hinit]
          cases hout : dma.armed <;> simp [SubmissionSucceeds, hinit, hout]
  | stop =>
      simp [IqDma.call, sdrHwStopIqDma, SubmissionSucceeds]
  | poll control found =>
      by_cases hwaiting : dma.running = false ∨ found.busy = true
      · -- Nothing is submitted, and nothing was to be.
        rw [call_poll_of_waiting control hwaiting]
        refine iff_of_true harmed ?_
        intro hrunning _ hdone
        rcases hwaiting with hstopped | hbusy
        · simp [hstopped] at hrunning
        · simp [hbusy] at hdone
      · have hrunning : dma.running = true := by
          simpa using fun h => hwaiting (.inl h)
        have hdone : found.busy = false := by
          simpa using fun h => hwaiting (.inr h)
        rw [call_poll_of_done (hready hrunning) hrunning (harmed hrunning) control hdone]
        simp [SubmissionSucceeds, hrunning, harmed hrunning, hdone]

end Flags

theorem sdrHwInit_running (found : InitAnswers) :
    (sdrHwInit .unset found).dma.running = false := by
  simp only [sdrHwInit, IqDma.unset]
  split_ifs <;> rfl

/-- After `sdr_hw_init`, a running DMA stays armed or about to be re-armed through any calls exactly
when no call finds `XAxiDma_SimpleTransfer` failing. -/
theorem armedOrRearms_iff (found : InitAnswers) (calls : List DmaCall) :
    (∀ done, done <+: calls → ArmedOrRearms (runFrom IqDma.call (sdrHwInit .unset found).dma done)) ↔
      Along IqDma.call SubmissionSucceeds (sdrHwInit .unset found).dma calls := by
  have hidle (P : Prop) : (sdrHwInit .unset found).dma.running = true → P := by
    simp [sdrHwInit_running]
  have hready : Along IqDma.call (fun dma _ => dma.running = true → dma.ready = true)
      (sdrHwInit .unset found).dma calls :=
    along_invariant (I := fun dma : IqDma => dma.running = true → dma.ready = true)
      (fun dma call h _ => ready_call h call) (hidle _)
      (along_of_forall fun _ _ _ => trivial)
  refine (forall₂_congr fun _ _ => armedOrRearms_iff_armed).trans ?_
  exact forall_prefix_iff_along_of_admitted
    (P := fun dma : IqDma => dma.running = true → dma.armed = true)
    (fun dma call harmed h => armed_call_iff h harmed call) (hidle _) hready

/-- One poll that cannot submit the next transfer silences a stream that was started: no number of
polls submits another one. -/
theorem failedSubmission_silences :
    let found : InitAnswers :=
      { lookupConfig := true, cfgInitialize := true, hasSg := false, iqPcb := true
        statusPcb := true }
    let streaming : Control :=
      { sdrControlInit with helloSeen := true, rx := { sdrControlInit.rx with enabled := true } }
    let poll := DmaCall.poll (some streaming) { busy := false, sent := true, submits := false }
    let dma := runFrom IqDma.call (sdrHwInit .unset found).dma [.start true, poll]
    dma.running = true ∧ ¬ ArmedOrRearms dma ∧
      ∀ polls : List (Option Control × PollAnswers),
        emits IqDma.call IqDma.asked dma (polls.map fun poll => .poll poll.1 poll.2) = [] := by
  intro found streaming poll dma
  have hdma : dma = { ready := true, running := true, armed := false } := rfl
  refine ⟨by rw [hdma], ?_, ?_⟩
  · rw [hdma, armedOrRearms_iff_armed]
    decide
  · exact emits_polls_of_disarmed (by rw [hdma])

end Bridge
end Sdr
