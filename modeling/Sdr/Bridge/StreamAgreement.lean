import Sdr.Bridge.Programming

/-!
# StreamAgreement — the handler's idea of the stream against the registers

`control->rx.enabled` is what the bridge reports and forwards packets by; the two enable bits are
what the hardware does.  They are set together by a `set_rx` that starts and cleared together by
`stop_all`.  The hardware-fault exit of `set_rx` clears only the bits: it agrees with the stored
state when nothing was streaming and contradicts it when it interrupts a stream.
-/

namespace Sdr
namespace Bridge

open Lib
open Fpga.CsrRegfile

/-- The stored stream is enabled exactly when the registers are, and then they hold it. -/
def Agrees (b : Board) : Prop :=
  (b.control.rx.enabled = true ↔ Streaming b.regs) ∧
    (b.control.rx.enabled = true → Holds b.regs b.control.rx)

/-- The line makes a checked request, its DMA start fails, and a stream is running. -/
def FaultsRunningStream (b : Board) (e : LineEvent) : Prop :=
  b.control.rx.enabled = true ∧ (acceptedRx b.control e.line).isSome = true ∧
    e.hw.startIqDma = false

instance (b : Board) (e : LineEvent) : Decidable (FaultsRunningStream b e) :=
  inferInstanceAs (Decidable (_ ∧ _ ∧ _))

theorem agrees_init : Agrees Board.init := by
  constructor
  · decide
  · intro h
    exact absurd h (by decide)

theorem stopWrites_not_streaming (r : Regs) : ¬ Streaming (r.applyAll stopWrites) := by
  have h := stopWrites_take r (k := 2) (by decide)
  exact not_streaming h

/-- The four things a line can do, as far as the agreement goes. -/
theorem agrees_step_iff {b : Board} (e : LineEvent) (h : Agrees b) :
    Agrees (b.step e) ↔ ¬ FaultsRunningStream b e := by
  cases lineEffect b e with
  | quiet hrequest hrx hwrites =>
      have hsame : Agrees (b.step e) := by
        simpa [Agrees, Board.step, hrx, hwrites] using h
      simp [hsame, FaultsRunningStream, hrequest]
  | stopped hrequest hrx hwrites =>
      have hoff : Agrees (b.step e) := by
        simp [Agrees, Board.step, hrx, hwrites, stopWrites_not_streaming]
      simp [hoff, FaultsRunningStream, hrequest]
  | started rx hrequest hdma hrx hwrites =>
      -- The configuration is stored with `enabled` set, after the registers were.
      have henabled := (acceptedRx_valid hrequest).enabled
      have hon : Agrees (b.step e) := by
        simp [Agrees, Board.step, hrx, hwrites, applyAll_programWrites, henabled,
          streaming_programmed, holds_programmed]
      simp [hon, FaultsRunningStream, hdma]
  | failed rx hrequest hdma hrx hwrites =>
      -- The registers are off and the stored stream is what it was before the line.
      have hoff : ¬ Streaming (b.step e).regs := by
        rw [Board.step, hwrites, Regs.applyAll_append]
        exact stopWrites_not_streaming _
      have hkept : (b.step e).control.rx = b.control.rx := hrx
      cases henabled : b.control.rx.enabled with
      | false =>
          simp [Agrees, hoff, hkept, henabled, FaultsRunningStream]
      | true =>
          simp [Agrees, hoff, hkept, henabled, FaultsRunningStream, hrequest, hdma]

/-- In every run, the handler agrees with the registers after each line exactly when no line
reprograms a running stream whose DMA then fails to start. -/
theorem agrees_always_iff (es : List LineEvent) :
    (∀ done, done <+: es → Agrees (Board.run done)) ↔
      Along Board.step (fun b e => ¬ FaultsRunningStream b e) Board.init es := by
  exact forall_prefix_iff_along (fun b e h => agrees_step_iff e h) agrees_init es

/-- A running stream is retuned and the DMA does not start: the enables are taken back, and the
handler still has the stream enabled. -/
theorem not_agrees_stuckLine : ¬ ∀ es, Agrees (Board.run es) := by
  intro h
  have hagrees := h [tuneLine, stuckLine]
  have henabled : (Board.run [tuneLine, stuckLine]).control.rx.enabled = true := by
    decide +kernel
  have hoff : ¬ Streaming (Board.run [tuneLine, stuckLine]).regs := by
    decide +kernel
  exact hoff (hagrees.1.1 henabled)

end Bridge
end Sdr
