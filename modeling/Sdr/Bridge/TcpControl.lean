import Sdr.Lib.CBuffer
import Sdr.Lib.Machine
import Sdr.Bridge.Programming

/-!
# TcpControl — control lines out of a TCP stream

Model of the TCP callbacks of `ps/baremetal/src/ac920_sdr_main.c`.  A connection collects its bytes in
`line` until a newline comes; what is behind a newline, or behind a line that is too long, starts
again at the front of the array.  The stack calls `sdr_tcp_recv` with a chain of buffers of any sizes.

What a line does is a `Handler`, so that the callbacks can be run over the handler's model on strings
and over the one on arrays.  The lines passed to it and the responses handed to
`sdr_tcp_send_response` are kept in a `Trace`.
-/

namespace Sdr
namespace Bridge

open Lib Lib.CString

/-! ## Connections -/

/-- `sdr_tcp_conn_t`. -/
structure Conn where
  line : CBuffer 2048
  used : Nat

/-- A connection as `sdr_tcp_accept` leaves it. -/
def Conn.init : Conn where
  line := CBuffer.zeroed 2048
  used := 0

/-- A string without a NUL, as a pointer to one gives it. -/
abbrev NulFree := { text : CString // nul ∉ text }

/-- What the callbacks call in `sdr_control.c`: the handling of a line, with its response, and the
address of a new peer. -/
structure Handler (σ : Type) where
  handleLine : σ → CString → Option (σ × CString)
  setPeerIp : σ → Option NulFree → Option σ

structure Trace (σ : Type) where
  control : σ
  lines : List CString
  responses : List CString

/-- A connection with the state its lines are handled in. -/
structure Link (σ : Type) where
  conn : Conn
  trace : Trace σ

def tooLong : CString :=
  ("\x7b\"ok\":false,\"error\":\x7b\"code\":\"invalid_field\"," ++
    "\"message\":\"control line too long\"\x7d\x7d\n").toList

theorem length_tooLong_lt : tooLong.length < 2048 := by
  decide +kernel

section Receive

variable {σ : Type} (handler : Handler σ)

def sdrTcpHandleLine (s : Link σ) : Option (Link σ) := do
  let line ← s.conn.line.store s.conn.used nul
  let text ← line.read
  let (control, response) ← handler.handleLine s.trace.control text
  return {
    conn := { line := line, used := 0 }
    trace :=
      { control := control
        lines := s.trace.lines ++ [text]
        responses := s.trace.responses ++ [response] } }

theorem sdrTcpHandleLine_eq {s : Link σ} {line : CBuffer 2048} {text response : CString}
    {control : σ} (hstore : s.conn.line.store s.conn.used nul = some line)
    (hread : line.read = some text)
    (hhandle : handler.handleLine s.trace.control text = some (control, response)) :
    sdrTcpHandleLine handler s = some
      { conn := { line := line, used := 0 }
        trace :=
          { control := control
            lines := s.trace.lines ++ [text]
            responses := s.trace.responses ++ [response] } } := by
  simp only [sdrTcpHandleLine, hstore, hread, hhandle, Option.bind_eq_bind, Option.bind_some,
    Option.pure_def]

/-- One turn of the inner loop of `sdr_tcp_recv`. -/
def recvChar (s : Link σ) (ch : Char) : Option (Link σ) :=
  if ch = '\r' then
    some s
  else if ch = '\n' then
    sdrTcpHandleLine handler s
  else if s.conn.used + 1 ≥ 2048 then
    -- What has been collected is forgotten, and so is this character.
    some
      { conn := { s.conn with used := 0 }
        trace := { s.trace with responses := s.trace.responses ++ [tooLong] } }
  else
    (s.conn.line.store s.conn.used ch).map fun line =>
      { s with conn := { line := line, used := s.conn.used + 1 } }

/-- One buffer of a chain. -/
def recvPbuf (s : Link σ) (payload : List UInt8) : Option (Link σ) :=
  (ofBytes payload).foldlM (recvChar handler) s

def recvChain (s : Link σ) (chain : List (List UInt8)) : Option (Link σ) :=
  chain.foldlM (recvPbuf handler) s

/-! ## The callbacks -/

/-- The open connections by number; a closed one is freed and its number is not used again. -/
structure Server (σ : Type) where
  conns : List (Option Conn)
  trace : Trace σ

/-- `sdr_tcp_accept` with memory for the connection. -/
def sdrTcpAccept (s : Server σ) (peerIp : Option NulFree) : Option (Server σ) := do
  let control ← handler.setPeerIp s.trace.control peerIp
  return { conns := s.conns ++ [some Conn.init], trace := { s.trace with control := control } }

theorem sdrTcpAccept_eq {s : Server σ} {peerIp : Option NulFree} {control : σ}
    (hpeer : handler.setPeerIp s.trace.control peerIp = some control) :
    sdrTcpAccept handler s peerIp = some
      { conns := s.conns ++ [some Conn.init], trace := { s.trace with control := control } } := by
  rw [sdrTcpAccept, hpeer]
  rfl

/-- `sdr_tcp_recv`: no buffers at all mean that the peer has closed. -/
def sdrTcpRecv (s : Server σ) (id : Nat) (p : Option (List (List UInt8))) (err : Bool) :
    Option (Server σ) :=
  match s.conns[id]? with
  | some (some conn) =>
    match p with
    | none => some { s with conns := s.conns.set id none }
    | some chain =>
      if err then
        some s
      else
        (recvChain handler { conn := conn, trace := s.trace } chain).map fun link =>
          { conns := s.conns.set id (some link.conn), trace := link.trace }
  | _ => some s

inductive TcpEvent
  | accept (peerIp : Option NulFree)
  | recv (id : Nat) (p : Option (List (List UInt8))) (err : Bool)
  -- `sdr_tcp_err`
  | error (id : Nat)

def Server.step (s : Server σ) : TcpEvent → Option (Server σ)
  | .accept peerIp => sdrTcpAccept handler s peerIp
  | .recv id p err => sdrTcpRecv handler s id p err
  | .error id => some { s with conns := s.conns.set id none }

def Server.run (s : Server σ) (events : List TcpEvent) : Option (Server σ) :=
  events.foldlM (Server.step handler) s

/-! ## Segmentation -/

/-- The bytes of one connection, in the calls and buffers they arrive in. -/
def received (id : Nat) (calls : List (List (List UInt8))) : List TcpEvent :=
  calls.map fun chain => .recv id (some chain) false

theorem recvChain_eq (s : Link σ) (chain : List (List UInt8)) :
    recvChain handler s chain = recvPbuf handler s chain.flatten := by
  have hbytes : ofBytes chain.flatten = (chain.map ofBytes).flatten := List.map_flatten
  rw [recvPbuf, hbytes, ← foldlM_flatten, List.foldlM_map]
  rfl

theorem recvPbuf_append (s : Link σ) (a b : List UInt8) :
    recvPbuf handler s (a ++ b) = (recvPbuf handler s a).bind fun s => recvPbuf handler s b := by
  have hbytes : ofBytes (a ++ b) = ofBytes a ++ ofBytes b := List.map_append
  rw [recvPbuf, hbytes, List.foldlM_append]
  rfl

/-- The server with the connection of that number and the trace replaced. -/
def Server.put (s : Server σ) (id : Nat) (link : Link σ) : Server σ where
  conns := s.conns.set id (some link.conn)
  trace := link.trace

theorem sdrTcpRecv_put {s : Server σ} {id : Nat} (hid : id < s.conns.length) (link : Link σ)
    (chain : List (List UInt8)) :
    sdrTcpRecv handler (s.put id link) id (some chain) false =
      (recvPbuf handler link chain.flatten).map (s.put id) := by
  have hopen : (s.put id link).conns[id]? = some (some link.conn) := List.getElem?_set_self hid
  simp only [sdrTcpRecv, hopen, Bool.false_eq_true, if_false]
  rw [← recvChain_eq]
  have hput (link' : Link σ) :
      ({ conns := (s.put id link).conns.set id (some link'.conn), trace := link'.trace } : Server σ) =
        s.put id link' := by
    simp only [Server.put, List.set_set]
  exact congrArg (fun f => (recvChain handler link chain).map f) (funext hput)

theorem run_put {s : Server σ} {id : Nat} (hid : id < s.conns.length) (link : Link σ)
    (calls : List (List (List UInt8))) :
    (s.put id link).run handler (received id calls) =
      (recvPbuf handler link calls.flatten.flatten).map (s.put id) := by
  induction calls generalizing link with
  | nil =>
      rfl
  | cons chain calls ih =>
      have hstep : (s.put id link).step handler (.recv id (some chain) false) =
          (recvPbuf handler link chain.flatten).map (s.put id) := sdrTcpRecv_put handler hid link chain
      rw [received, List.map_cons, Server.run, List.foldlM_cons, hstep, List.flatten_cons,
        List.flatten_append, recvPbuf_append]
      cases recvPbuf handler link chain.flatten with
      | none => rfl
      | some link' => exact ih link'

/-- The calls of one connection come to one call with all its bytes in one buffer. -/
theorem run_received (s : Server σ) (id : Nat) (calls : List (List (List UInt8))) :
    s.run handler (received id calls) =
      sdrTcpRecv handler s id (some [calls.flatten.flatten]) false := by
  by_cases hopen : ∃ conn, s.conns[id]? = some (some conn)
  · rcases hopen with ⟨conn, hconn⟩
    rcases List.getElem?_eq_some_iff.1 hconn with ⟨hid, hget⟩
    have hself : s.put id { conn := conn, trace := s.trace } = s := by
      have hset : s.conns.set id (some conn) = s.conns := by
        rw [← hget, List.set_getElem_self]
      simp only [Server.put, hset]
    rw [← hself, run_put handler hid, sdrTcpRecv_put handler hid]
    simp
  · -- No callback is left to receive anything.
    have hclosed (p : Option (List (List UInt8))) (err : Bool) :
        sdrTcpRecv handler s id p err = some s := by
      unfold sdrTcpRecv
      split
      · next conn hconn => exact absurd ⟨conn, hconn⟩ hopen
      · rfl
    rw [hclosed]
    induction calls with
    | nil =>
        rfl
    | cons chain calls ih =>
        rw [received, List.map_cons, Server.run, List.foldlM_cons]
        show (sdrTcpRecv handler s id (some chain) false).bind _ = _
        rw [hclosed]
        exact ih

end Receive

/-! ## Two handlers side by side -/

/-- Related states give related states and responses. -/
structure Simulates {σ τ : Type} (h : Handler σ) (h' : Handler τ) (R : σ → τ → Prop)
    (Q : CString → CString → Prop) : Prop where
  line : ∀ c d text, R c d → nul ∉ text →
    ∃ c' d' r q, h.handleLine c text = some (c', r) ∧ h'.handleLine d text = some (d', q) ∧
      R c' d' ∧ Q r q
  peer : ∀ c d ip, R c d →
    ∃ c' d', h.setPeerIp c ip = some c' ∧ h'.setPeerIp d ip = some d' ∧ R c' d'
  tooLong : Q tooLong tooLong

section Simulation

variable {σ τ : Type} {h : Handler σ} {h' : Handler τ} {R : σ → τ → Prop}
  {Q : CString → CString → Prop}

structure TraceRel (R : σ → τ → Prop) (Q : CString → CString → Prop) (s : Trace σ) (t : Trace τ) :
    Prop where
  control : R s.control t.control
  lines : s.lines = t.lines
  responses : List.Forall₂ Q s.responses t.responses

/-- The same characters are collected, and there is room for a NUL behind them. -/
structure LinkRel (R : σ → τ → Prop) (Q : CString → CString → Prop) (s : Link σ) (t : Link τ) :
    Prop where
  conn : s.conn = t.conn
  used_le : s.conn.used ≤ 2047
  trace : TraceRel R Q s.trace t.trace

structure ServerRel (R : σ → τ → Prop) (Q : CString → CString → Prop) (s : Server σ)
    (t : Server τ) : Prop where
  conns : s.conns = t.conns
  used_le : ∀ conn, some conn ∈ s.conns → conn.used ≤ 2047
  trace : TraceRel R Q s.trace t.trace

variable (hsim : Simulates h h' R Q)
include hsim

theorem sdrTcpHandleLine_related {s : Link σ} {t : Link τ} (hst : LinkRel R Q s t) :
    ∃ s' t', sdrTcpHandleLine h s = some s' ∧ sdrTcpHandleLine h' t = some t' ∧
      LinkRel R Q s' t' := by
  rcases hst with ⟨hconn, hused, htrace⟩
  have hstore := CBuffer.store_eq (b := s.conn.line) (Nat.lt_succ_of_le hused) nul
  rcases CBuffer.read_of_store hstore with ⟨text, hread⟩
  rcases hsim.line s.trace.control t.trace.control text htrace.control
    (CBuffer.nul_notMem_of_read hread) with ⟨c', d', r, q, hc, hd, hR, hQ⟩
  refine ⟨_, _, sdrTcpHandleLine_eq h hstore hread hc,
    sdrTcpHandleLine_eq h' (hconn ▸ hstore) hread hd, rfl, Nat.zero_le _, hR, ?_, ?_⟩
  · exact congrArg (· ++ [text]) htrace.lines
  · exact List.rel_append htrace.responses (.cons hQ .nil)

theorem recvChar_related (s : Link σ) (t : Link τ) (ch : Char) (hst : LinkRel R Q s t) :
    ∃ s' t', recvChar h s ch = some s' ∧ recvChar h' t ch = some t' ∧ LinkRel R Q s' t' := by
  rcases hst with ⟨hconn, hused, htrace⟩
  unfold recvChar
  rw [← hconn]
  split_ifs with hreturn hnewline hfull
  · exact ⟨s, t, rfl, rfl, hconn, hused, htrace⟩
  · exact sdrTcpHandleLine_related hsim ⟨hconn, hused, htrace⟩
  · refine ⟨_, _, rfl, rfl, rfl, Nat.zero_le _, htrace.control, htrace.lines, ?_⟩
    exact List.rel_append htrace.responses (.cons hsim.tooLong .nil)
  · rw [CBuffer.store_eq (by omega)]
    exact ⟨_, _, rfl, rfl, rfl, Nat.le_of_lt_succ (Nat.lt_of_not_le hfull), htrace⟩

theorem recvChain_related {s : Link σ} {t : Link τ} (hst : LinkRel R Q s t)
    (chain : List (List UInt8)) :
    ∃ s' t', recvChain h s chain = some s' ∧ recvChain h' t chain = some t' ∧
      LinkRel R Q s' t' := by
  rw [recvChain_eq, recvChain_eq]
  exact foldlM_related (recvChar_related hsim) hst _

theorem step_related (s : Server σ) (t : Server τ) (e : TcpEvent) (hst : ServerRel R Q s t) :
    ∃ s' t', s.step h e = some s' ∧ t.step h' e = some t' ∧ ServerRel R Q s' t' := by
  rcases hst with ⟨hconns, hused, htrace⟩
  -- Closing a connection keeps the others.
  have hclose (id : Nat) : ServerRel R Q { s with conns := s.conns.set id none }
      { t with conns := t.conns.set id none } := by
    refine ⟨congrArg (List.set · id none) hconns, ?_, htrace⟩
    intro conn hmem
    rcases List.mem_or_eq_of_mem_set hmem with hmem | heq
    · exact hused conn hmem
    · cases heq
  cases e with
  | accept peerIp =>
      rcases hsim.peer s.trace.control t.trace.control peerIp htrace.control with
        ⟨c', d', hc, hd, hR⟩
      refine ⟨_, _, sdrTcpAccept_eq h hc, sdrTcpAccept_eq h' hd, ?_, ?_, hR, htrace.lines,
        htrace.responses⟩
      · exact congrArg (· ++ [some Conn.init]) hconns
      · intro conn hmem
        rcases List.mem_append.1 hmem with hmem | hmem
        · exact hused conn hmem
        · cases List.mem_singleton.1 hmem
          exact Nat.zero_le _
  | error id => exact ⟨_, _, rfl, rfl, hclose id⟩
  | recv id p err =>
      have hslot : t.conns[id]? = s.conns[id]? := by
        rw [hconns]
      simp only [Server.step, sdrTcpRecv, hslot]
      cases hconn : s.conns[id]? with
      | none => exact ⟨s, t, rfl, rfl, hconns, hused, htrace⟩
      | some slot =>
      cases slot with
      | none => exact ⟨s, t, rfl, rfl, hconns, hused, htrace⟩
      | some conn =>
      cases p with
      | none => exact ⟨_, _, rfl, rfl, hclose id⟩
      | some chain =>
      cases err with
      | true => exact ⟨s, t, rfl, rfl, hconns, hused, htrace⟩
      | false =>
          have hmem : some conn ∈ s.conns := List.mem_of_getElem? hconn
          rcases recvChain_related hsim (s := { conn := conn, trace := s.trace })
            (t := { conn := conn, trace := t.trace }) ⟨rfl, hused conn hmem, htrace⟩ chain with
            ⟨s', t', hs, ht, hrel⟩
          refine ⟨s.put id s', t.put id t', congrArg (Option.map (s.put id)) hs,
            congrArg (Option.map (t.put id)) ht, ?_, ?_, hrel.trace⟩
          · rw [Server.put, Server.put, hconns, hrel.conn]
          · intro other hother
            rcases List.mem_or_eq_of_mem_set hother with hother | heq
            · exact hused other hother
            · cases heq
              exact hrel.used_le

/-- The two servers go through the same lines in related states, and neither makes an access outside
its arrays. -/
theorem run_related {s : Server σ} {t : Server τ} (hst : ServerRel R Q s t)
    (events : List TcpEvent) :
    ∃ s' t', s.run h events = some s' ∧ t.run h' events = some t' ∧ ServerRel R Q s' t' :=
  foldlM_related (step_related hsim) hst events

end Simulation

/-! ## Lines handled on strings -/

/-- The bridge between two lines: the state of `sdr_control.c`, how many lines it has handled, and
what it has asked of the hardware. -/
structure Session where
  control : Control
  handled : Nat
  ops : List HwOp

/-- The handler on strings; `hooks n` is what the hardware answers while line `n` is handled. -/
def lineHandler (hooks : Nat → Hw) : Handler Session where
  handleLine s line :=
    let o := sdrControlHandleLine (hooks s.handled) s.control line
    some ({ control := o.control, handled := s.handled + 1, ops := s.ops ++ o.ops },
      o.responseText 2048)
  setPeerIp s peerIp :=
    some { s with control := sdrControlSetPeerIp s.control (peerIp.map Subtype.val) }

/-- Every open connection has room for a NUL. -/
def Server.Bounded {σ : Type} (s : Server σ) : Prop :=
  ∀ conn, some conn ∈ s.conns → conn.used ≤ 2047

theorem simulates_lineHandler (hooks : Nat → Hw) :
    Simulates (lineHandler hooks) (lineHandler hooks) (· = ·) (· = ·) := by
  refine ⟨?_, ?_, rfl⟩
  · rintro c _ text rfl _
    exact ⟨_, _, _, _, rfl, rfl, rfl, rfl⟩
  · rintro c _ ip rfl
    exact ⟨_, _, rfl, rfl, rfl⟩

theorem run_lineHandler (hooks : Nat → Hw) {s : Server Session} (hs : s.Bounded)
    (events : List TcpEvent) :
    ∃ s', s.run (lineHandler hooks) events = some s' ∧ s'.Bounded := by
  have hself : ServerRel (· = ·) (· = ·) s s := by
    refine ⟨rfl, hs, rfl, rfl, ?_⟩
    exact List.forall₂_same.2 fun _ _ => rfl
  rcases run_related (simulates_lineHandler hooks) hself events with ⟨s', _, hrun, _, hrel⟩
  exact ⟨s', hrun, hrel.used_le⟩

/-- How the bytes of a connection are cut into calls and buffers cannot be seen: the lines that are
handled, the responses, the connection and the state of the bridge come out the same. -/
theorem segmentation_invisible (hooks : Nat → Hw) {s : Server Session} (hs : s.Bounded) (id : Nat)
    {calls calls' : List (List (List UInt8))}
    (hbytes : calls.flatten.flatten = calls'.flatten.flatten) :
    ∃ s', s.run (lineHandler hooks) (received id calls) = some s' ∧
      s.run (lineHandler hooks) (received id calls') = some s' := by
  rcases run_lineHandler hooks hs (received id calls) with ⟨s', hrun, _⟩
  refine ⟨s', hrun, ?_⟩
  rw [run_received, ← hbytes, ← run_received, hrun]

/-- The bridge after its start, with one connection open. -/
def connected : Server Session where
  conns := [some Conn.init]
  trace :=
    { control := { control := sdrControlInit, handled := 0, ops := [] }
      lines := []
      responses := [] }

/-- A line cut between its carriage return and its newline, and in one piece. -/
theorem segmentation_invisible_crlf :
    ∃ s', connected.run (lineHandler fun _ => okHw)
          (received 0 [[[0x7B], [], [0x7D, 0x0D]], [[0x0A]]]) = some s' ∧
      connected.run (lineHandler fun _ => okHw) (received 0 [[[0x7B, 0x7D, 0x0D, 0x0A]]]) =
        some s' := by
  refine segmentation_invisible _ ?_ 0 rfl
  intro conn hconn
  cases List.mem_singleton.1 hconn
  exact Nat.zero_le _

end Bridge
end Sdr
