import Sdr.Bridge.MemoryRefinement
import Sdr.Bridge.TcpControl

/-!
# BufferSafety — no stream overruns an array of the bridge

The TCP callbacks over the handler on arrays.  Whatever arrives on whichever connections, no store
leaves its array and no array is read as a string without a NUL in it; the run simulates the one over
the handler on strings, so that the arrays hold what that model says.
-/

namespace Sdr
namespace Bridge

open Lib Lib.CString

/-! ## Lines handled on arrays -/

structure Machine where
  control : Memory.Control
  handled : Nat
  ops : List HwOp

section Arrays

variable (hooks : Nat → Hw) (scratch : Nat → Memory.Scratch) (response : Nat → CBuffer 2048)

/-- The handler on arrays; `scratch n` and `response n` are what line `n` finds in the arrays that
are declared for it. -/
def arrayHandler : Handler Machine where
  handleLine s line :=
    (Memory.sdrControlHandleLine (scratch s.handled) (response s.handled) 2048 (hooks s.handled)
      s.control line).map fun h =>
        ({ control := h.control, handled := s.handled + 1, ops := s.ops ++ h.ops },
          h.response.bytes.take h.length)
  setPeerIp s peerIp :=
    (Memory.sdrControlSetPeerIp s.control (peerIp.map Subtype.val)).map fun control =>
      { s with control := control }

/-- The bridge after its start. -/
def boot : Option (Server Machine) :=
  Memory.sdrControlInit.map fun control =>
    { conns := []
      trace :=
        { control := { control := control, handled := 0, ops := [] }
          lines := []
          responses := [] } }

def bootStrings : Server Session where
  conns := []
  trace :=
    { control := { control := sdrControlInit, handled := 0, ops := [] }
      lines := []
      responses := [] }

/-! ## Simulation -/

structure Machine.Holds (s : Machine) (t : Session) : Prop where
  control : s.control.Holds t.control
  handled : s.handled = t.handled
  ops : s.ops = t.ops

/-- No formatting call fails. -/
def Formats : Prop :=
  ∀ n, (scratch n).statusFails = false ∧ (scratch n).responseFails = false

/-- A response that fits its array with the NUL; it is the other model's where formatting works. -/
def Answers (r q : CString) : Prop :=
  r.length < 2048 ∧ (Formats scratch → r = q)

theorem arrayHandler_simulates :
    Simulates (arrayHandler hooks scratch response) (lineHandler hooks) Machine.Holds
      (Answers scratch) where
  line := by
    intro s t line hst hline
    rcases Memory.sdrControlHandleLine_agrees (by decide) (scratch s.handled) (response s.handled)
      (hooks s.handled) hst.control hline with ⟨h, hrun, hagrees⟩
    have harray : (arrayHandler hooks scratch response).handleLine s line =
        some ({ control := h.control, handled := s.handled + 1, ops := s.ops ++ h.ops },
          h.response.bytes.take h.length) := by
      simp only [arrayHandler, hrun, Option.map_some]
    refine ⟨_, _, _, _, harray, rfl, ?_, ?_, ?_⟩
    · exact ⟨hst.handled ▸ hagrees.control, congrArg (· + 1) hst.handled,
        by rw [hst.ops, hagrees.ops, hst.handled]⟩
    · rw [List.length_take]
      exact Nat.lt_of_le_of_lt (Nat.min_le_left _ _) hagrees.length_lt
    · intro hformats
      rw [← hst.handled]
      exact hagrees.text (hformats s.handled).1 (hformats s.handled).2
  peer := by
    intro s t ip hst
    have hnul : ∀ text, ip.map Subtype.val = some text → nul ∉ text := by
      intro text htext
      rcases Option.map_eq_some_iff.1 htext with ⟨free, _, rfl⟩
      exact free.2
    rcases Memory.sdrControlSetPeerIp_holds hst.control hnul with ⟨m, hset, hm⟩
    exact ⟨_, _, congrArg (Option.map _) hset, rfl, hm, hst.handled, hst.ops⟩
  tooLong := ⟨length_tooLong_lt, fun _ => rfl⟩

theorem boot_related :
    ∃ s, boot = some s ∧ ServerRel Machine.Holds (Answers scratch) s bootStrings := by
  rcases Memory.sdrControlInit_holds with ⟨m, hinit, hm⟩
  refine ⟨_, by rw [boot, hinit]; rfl, rfl, ?_, ⟨hm, rfl, rfl⟩, rfl, .nil⟩
  intro conn hconn
  cases hconn

/-- The run on arrays is the run on strings, seen through what the arrays hold. -/
theorem array_run_refines (events : List TcpEvent) :
    ∃ s s' t', boot = some s ∧ s.run (arrayHandler hooks scratch response) events = some s' ∧
      bootStrings.run (lineHandler hooks) events = some t' ∧
      ServerRel Machine.Holds (Answers scratch) s' t' := by
  rcases boot_related scratch with ⟨s, hboot, hrel⟩
  rcases run_related (arrayHandler_simulates hooks scratch response) hrel events with
    ⟨s', t', hs, ht, hrel'⟩
  exact ⟨s, s', t', hboot, hs, ht, hrel'⟩

/-! ## Every array -/

/-- Each string of the state is ended in its array. -/
structure Memory.Control.Terminated (m : Memory.Control) : Prop where
  peerIp : m.peerIp.Terminated
  destinationIp : m.udpPeer.destinationIp.Terminated
  mode : m.rx.mode.Terminated
  lna : m.frontend.lna.Terminated
  filter : m.frontend.filter.Terminated

theorem Memory.Control.Holds.terminated {m : Memory.Control} {c : Bridge.Control}
    (h : m.Holds c) : m.Terminated := by
  rcases Memory.UdpPeer.contents_eq_some.1 h.udpPeer with ⟨hip, _⟩
  rcases Memory.RxConfig.contents_eq_some.1 h.rx with ⟨hmode, _⟩
  rcases Memory.FrontendConfig.contents_eq_some.1 h.frontend with ⟨hlna, hfilter, _⟩
  exact ⟨CBuffer.terminated_of_read h.peerIp, CBuffer.terminated_of_read hip,
    CBuffer.terminated_of_read hmode, CBuffer.terminated_of_read hlna,
    CBuffer.terminated_of_read hfilter⟩

/-- In every run of the callbacks no access leaves an array, a connection never holds more than 2047
characters, the strings of the state are ended and every response is shorter than its array.  The
three functions that write strings do so inside an array of any size, and end them. -/
theorem arrays_never_overrun (events : List TcpEvent) :
    (∃ s s', boot = some s ∧ s.run (arrayHandler hooks scratch response) events = some s' ∧
        s'.Bounded ∧ s'.trace.control.control.Terminated ∧
        ∀ r ∈ s'.trace.responses, r.length < 2048) ∧
      (∀ (size : Nat) (dst : CBuffer (size + 1)) (src : Option CString),
        ∃ dst', Memory.copyString dst (size + 1) src = some dst' ∧ dst'.Terminated) ∧
      (∀ (size : Nat) (arrays : Memory.Scratch) (line : CString) (key : String)
        (value : CBuffer (size + 1)),
        ∃ value' found, Memory.jsonFindString arrays line key value (size + 1) =
          some (value', found) ∧ value'.Terminated) ∧
      ∀ (size : Nat) (fails : Bool) (dst : CBuffer (size + 1)) (text : CString),
        ∃ dst' length, Memory.appendJson fails dst (size + 1) text = some (dst', length) ∧
          length < size + 1 ∧ dst'.Terminated := by
  refine ⟨?_, ?_, ?_, ?_⟩
  · rcases array_run_refines hooks scratch response events with ⟨s, s', t', hboot, hrun, _, hrel⟩
    refine ⟨s, s', hboot, hrun, hrel.used_le, hrel.trace.control.control.terminated, ?_⟩
    exact ((List.forall₂_and_left _ _).1 hrel.trace.responses).1
  · intro size dst src
    cases src with
    | none =>
        have hpos : 0 < size + 1 := Nat.succ_pos size
        exact ⟨dst.put [], CBuffer.store_eq hpos nul, CBuffer.terminated_put hpos⟩
    | some src =>
        refine ⟨_, Memory.copyString_eq (Nat.succ_ne_zero size) dst src, CBuffer.terminated_put ?_⟩
        rw [copyString, List.length_take]
        omega
  · intro size arrays line key value
    rcases Memory.jsonFindValue_isSome arrays.pattern line key with ⟨r, hr⟩
    rcases Memory.jsonFindString_spec (Nat.succ_ne_zero size) hr value with ⟨text, hlen, hfind, _⟩
    exact ⟨_, _, hfind, CBuffer.terminated_put hlen⟩
  · intro size fails dst text
    rcases Memory.appendJson_spec (Nat.succ_ne_zero size) fails dst text with
      ⟨dst', length, happend, hlt, hterm, _⟩
    exact ⟨dst', length, happend, hlt, hterm⟩

end Arrays

end Bridge
end Sdr
