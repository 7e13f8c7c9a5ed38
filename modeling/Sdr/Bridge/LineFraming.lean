import Sdr.Bridge.ScanLine
import Sdr.Bridge.TcpControl
import Mathlib.Data.List.TakeWhile

/-!
# LineFraming — which lines of a byte stream reach the handler

A connection collects up to 2047 characters of a line.  At the next one `sdr_tcp_recv` answers that
the line is too long, forgets what it has and goes on collecting, so that the rest of the line is a
line of its own: a line of `n` characters is answered `n / 2048` times with that message, and its last
`n % 2048` characters are handled at the newline.
-/

namespace Sdr
namespace Bridge

open Lib Lib.CString

/-! ## Lines of a stream -/

/-- The characters of a line that count. -/
def visible (body : List UInt8) : CString :=
  (ofBytes body).filter (· ≠ '\r')

/-- `body` stands between two newlines of the stream, or between its start and a newline. -/
structure TerminatedLine (bytes pre body : List UInt8) : Prop where
  split : ∃ post, bytes = pre ++ (body ++ 10 :: post)
  start : pre = [] ∨ ∃ before, pre = before ++ [10]
  noNewline : (10 : UInt8) ∉ body

section Collect

variable {σ : Type} {handler : Handler σ} {s t : Link σ}

/-- What the characters `v` leave of a line that starts in `s`. -/
structure Collected (s : Link σ) (v : CString) (t : Link σ) : Prop where
  control : t.trace.control = s.trace.control
  lines : t.trace.lines = s.trace.lines
  responses : t.trace.responses = s.trace.responses ++ List.replicate (v.length / 2048) tooLong
  used : t.conn.used = v.length % 2048
  line : t.conn.line.bytes.take t.conn.used = v.drop (2048 * (v.length / 2048))

theorem collected_nil (hs : s.conn.used = 0) : Collected s [] s where
  control := rfl
  lines := rfl
  responses := by simp
  used := hs
  line := by simp [hs]

/-- A character that is stored, or one too many. -/
theorem collected_recvChar {v : CString} (h : Collected s v t) {ch : Char} (hreturn : ch ≠ '\r')
    (hnewline : ch ≠ '\n') : ∃ t', recvChar handler t ch = some t' ∧ Collected s (v ++ [ch]) t' := by
  have hused := h.used
  have hlt : t.conn.used < 2048 := by
    rw [hused]
    exact Nat.mod_lt _ (by decide)
  rw [recvChar, if_neg hreturn, if_neg hnewline]
  split_ifs with hfull
  · have hdiv : (v ++ [ch]).length / 2048 = v.length / 2048 + 1 := by
      rw [List.length_append, List.length_singleton]
      omega
    have hmod : (v ++ [ch]).length % 2048 = 0 := by
      rw [List.length_append, List.length_singleton]
      omega
    refine ⟨_, rfl, h.control, h.lines, ?_, hmod.symm, ?_⟩
    · rw [hdiv, List.replicate_succ', ← List.append_assoc, ← h.responses]
    · rw [hdiv]
      refine (List.drop_eq_nil_of_le ?_).symm
      rw [List.length_append, List.length_singleton]
      omega
  · have hdiv : (v ++ [ch]).length / 2048 = v.length / 2048 := by
      rw [List.length_append, List.length_singleton]
      omega
    rw [CBuffer.store_eq hlt]
    refine ⟨_, rfl, h.control, h.lines, ?_, ?_, ?_⟩
    · rw [hdiv]
      exact h.responses
    · rw [List.length_append, List.length_singleton]
      show t.conn.used + 1 = _
      omega
    · -- The new character stands behind those collected so far.
      have hbytes := CBuffer.bytes_overwrite (b := t.conn.line) (i := t.conn.used)
        (show t.conn.used + [ch].length ≤ 2048 from hlt)
      have htake : (t.conn.line.bytes.take t.conn.used).length = t.conn.used := by
        rw [List.length_take, t.conn.line.length_bytes]
        omega
      have hstored : ((t.conn.line.overwrite t.conn.used [ch]).bytes).take (t.conn.used + 1) =
          t.conn.line.bytes.take t.conn.used ++ [ch] := by
        rw [hbytes]
        exact List.take_left' (by rw [List.length_append, htake]; rfl)
      show ((t.conn.line.overwrite t.conn.used [ch]).bytes).take (t.conn.used + 1) = _
      rw [hstored, h.line, hdiv, List.drop_append_of_le_length]
      exact Nat.mul_div_le _ _

theorem collected_foldlM {v body : CString} (h : Collected s v t) (hbody : '\n' ∉ body) :
    ∃ t', body.foldlM (recvChar handler) t = some t' ∧
      Collected s (v ++ body.filter (· ≠ '\r')) t' := by
  induction body generalizing t v with
  | nil =>
      exact ⟨t, rfl, by simpa using h⟩
  | cons ch body ih =>
      rw [List.mem_cons, not_or] at hbody
      rw [List.foldlM_cons]
      by_cases hreturn : ch = '\r'
      · -- Carriage returns are not collected.
        have hskip : recvChar handler t ch = some t := by
          rw [recvChar, if_pos hreturn]
        rw [hskip, List.filter_cons_of_neg (by simp [hreturn])]
        exact ih h hbody.2
      · obtain ⟨t', hstep, ht'⟩ : ∃ t', recvChar handler t ch = some t' ∧
            Collected s (v ++ [ch]) t' := collected_recvChar h hreturn (Ne.symm hbody.1)
        obtain ⟨t'', hrest, ht''⟩ := ih ht' hbody.2
        refine ⟨t'', ?_, ?_⟩
        · rw [hstep]
          exact hrest
        · rw [List.filter_cons_of_pos (by simp [hreturn])]
          simpa using ht''

end Collect

section Lines

variable (hooks : Nat → Hw) {s : Link Session}

theorem newline_notMem_ofBytes {body : List UInt8} (h : (10 : UInt8) ∉ body) :
    '\n' ∉ ofBytes body := by
  intro hmem
  rcases List.mem_map.1 hmem with ⟨b, hb, hchar⟩
  have hval : b.toNat = 10 := by
    rw [← toNat_ofNat_byte, hchar]
    rfl
  have hten : b = 10 := UInt8.toNat_inj.1 hval
  exact h (hten ▸ hb)

/-- Handling what has been collected. -/
theorem exists_sdrTcpHandleLine (hs : s.conn.used < 2048) :
    ∃ t response, sdrTcpHandleLine (lineHandler hooks) s = some t ∧ t.conn.used = 0 ∧
      t.trace.lines =
        s.trace.lines ++ [(s.conn.line.bytes.take s.conn.used).takeWhile (· ≠ nul)] ∧
      t.trace.responses = s.trace.responses ++ [response] := by
  have hhandle (text : CString) : ∃ control response,
      (lineHandler hooks).handleLine s.trace.control text = some (control, response) := ⟨_, _, rfl⟩
  obtain ⟨control, response, hhandle⟩ :=
    hhandle ((s.conn.line.bytes.take s.conn.used).takeWhile (· ≠ nul))
  exact ⟨_, response, sdrTcpHandleLine_eq (lineHandler hooks) (CBuffer.store_eq hs nul)
    (CBuffer.read_overwrite_nul hs) hhandle, rfl, rfl, rfl⟩

theorem recvPbuf_newline {σ : Type} (handler : Handler σ) (s : Link σ) :
    recvPbuf handler s [10] = sdrTcpHandleLine handler s := by
  have hchars : ofBytes [10] = ['\n'] := by decide
  rw [recvPbuf, hchars, List.foldlM_cons, recvChar, if_neg (by decide), if_pos rfl]
  exact bind_pure _

/-- A line from its first byte to its newline. -/
theorem recvPbuf_line (hs : s.conn.used = 0) {body : List UInt8} (hbody : (10 : UInt8) ∉ body) :
    ∃ t response, recvPbuf (lineHandler hooks) s (body ++ [10]) = some t ∧ t.conn.used = 0 ∧
      t.trace.lines = s.trace.lines ++
        [((visible body).drop (2048 * ((visible body).length / 2048))).takeWhile (· ≠ nul)] ∧
      t.trace.responses = s.trace.responses ++
        (List.replicate ((visible body).length / 2048) tooLong ++ [response]) := by
  obtain ⟨u, hcollect, hu⟩ : ∃ u, recvPbuf (lineHandler hooks) s body = some u ∧
      Collected s (visible body) u :=
    collected_foldlM (collected_nil hs) (newline_notMem_ofBytes hbody)
  have hlt : u.conn.used < 2048 := by
    rw [hu.used]
    exact Nat.mod_lt _ (by decide)
  obtain ⟨t, response, hline, hused, hlines, hresponses⟩ := exists_sdrTcpHandleLine hooks hlt
  refine ⟨t, response, ?_, hused, ?_, ?_⟩
  · rw [recvPbuf_append, hcollect, Option.bind_some, recvPbuf_newline, hline]
  · rw [hlines, hu.lines, hu.line]
  · rw [hresponses, hu.responses, List.append_assoc]

/-- Bytes can always be received, and leave room for a NUL. -/
theorem exists_recvPbuf (hs : s.conn.used ≤ 2047) (bytes : List UInt8) :
    ∃ t, recvPbuf (lineHandler hooks) s bytes = some t ∧ t.conn.used ≤ 2047 := by
  have hself : LinkRel (· = ·) (· = ·) s s :=
    ⟨rfl, hs, rfl, rfl, List.forall₂_same.2 fun _ _ => rfl⟩
  obtain ⟨t, _, hrun, _, hrel⟩ := recvChain_related (simulates_lineHandler hooks) hself [bytes]
  rw [recvChain_eq, List.flatten_singleton] at hrun
  exact ⟨t, hrun, hrel.used_le⟩

/-- At the start of a line nothing has been collected. -/
theorem recvPbuf_start (hs : s.conn.used = 0) {pre : List UInt8}
    (hstart : pre = [] ∨ ∃ before, pre = before ++ [10]) :
    ∃ t, recvPbuf (lineHandler hooks) s pre = some t ∧ t.conn.used = 0 := by
  rcases hstart with rfl | ⟨before, rfl⟩
  · exact ⟨s, rfl, hs⟩
  · obtain ⟨u, hu, hused⟩ := exists_recvPbuf hooks (by omega : s.conn.used ≤ 2047) before
    obtain ⟨t, _, hline, ht, _⟩ := exists_sdrTcpHandleLine hooks (Nat.lt_succ_of_le hused)
    refine ⟨t, ?_, ht⟩
    rw [recvPbuf_append, hu, Option.bind_some, recvPbuf_newline, hline]

/-! ## Exact framing -/

/-- One line is answered once; it is handled as it is if it fits, and otherwise not at all. -/
structure Framed (body : List UInt8) (s t : Link Session) : Prop where
  response : ∃ response, t.trace.responses = s.trace.responses ++ [response]
  fits : (visible body).length ≤ 2047 → t.trace.lines = s.trace.lines ++ [visible body]
  tooLong : 2047 < (visible body).length → t.trace.lines = s.trace.lines

/-- Every terminated line of the stream is framed, from its first byte to its newline. -/
def StreamFramed (s : Link Session) (bytes : List UInt8) : Prop :=
  ∀ pre body, TerminatedLine bytes pre body →
    ∃ t t', recvPbuf (lineHandler hooks) s pre = some t ∧
      recvPbuf (lineHandler hooks) t (body ++ [10]) = some t' ∧ Framed body t t'

/-- The line fits the connection's array, and no NUL in it ends the string early. -/
def FitsLine (body : List UInt8) : Prop :=
  (visible body).length ≤ 2047 ∧ nul ∉ visible body

theorem takeWhile_nul_eq_self_iff {text : CString} :
    text.takeWhile (· ≠ nul) = text ↔ nul ∉ text := by
  rw [List.takeWhile_eq_self_iff]
  constructor
  · intro h hmem
    exact absurd (h nul hmem) (by simp)
  · intro h c hc
    exact decide_eq_true fun heq => h (heq ▸ hc)

theorem framed_iff {t : Link Session} {body : List UInt8} {response : CString}
    (hlines : t.trace.lines = s.trace.lines ++
      [((visible body).drop (2048 * ((visible body).length / 2048))).takeWhile (· ≠ nul)])
    (hresponses : t.trace.responses = s.trace.responses ++
      (List.replicate ((visible body).length / 2048) tooLong ++ [response])) :
    Framed body s t ↔ FitsLine body := by
  constructor
  · rintro ⟨⟨response', hone⟩, hfits, _⟩
    -- More than one response means that the line did not fit.
    have hshort : (visible body).length ≤ 2047 := by
      rw [hone, List.append_cancel_left_eq] at hresponses
      have hlength := congrArg List.length hresponses
      rw [List.length_append, List.length_replicate, List.length_singleton] at hlength
      simp only [List.length_singleton] at hlength
      omega
    have hzero : (visible body).length / 2048 = 0 := by omega
    rw [hfits hshort, hzero, Nat.mul_zero, List.drop_zero, List.append_cancel_left_eq,
      List.cons.injEq] at hlines
    exact ⟨hshort, takeWhile_nul_eq_self_iff.1 hlines.1.symm⟩
  · rintro ⟨hshort, hnul⟩
    have hzero : (visible body).length / 2048 = 0 := by omega
    rw [hzero, List.replicate_zero, List.nil_append] at hresponses
    refine ⟨⟨response, hresponses⟩, ?_, fun hlong => absurd hlong (by omega)⟩
    intro _
    rw [hlines, hzero, Nat.mul_zero, List.drop_zero, takeWhile_nul_eq_self_iff.2 hnul]

theorem streamFramed_iff (hs : s.conn.used = 0) (bytes : List UInt8) :
    StreamFramed hooks s bytes ↔ ∀ pre body, TerminatedLine bytes pre body → FitsLine body := by
  refine forall₃_congr ?_
  intro pre body hline
  obtain ⟨t, hpre, hused⟩ := recvPbuf_start hooks hs hline.start
  obtain ⟨t', response, hbody, _, hlines, hresponses⟩ := recvPbuf_line hooks hused hline.noNewline
  rw [← framed_iff hlines hresponses]
  constructor
  · rintro ⟨u, u', hu, hu', hframed⟩
    rw [hpre] at hu
    cases hu
    rw [hbody] at hu'
    cases hu'
    exact hframed
  · intro hframed
    exact ⟨t, t', hpre, hbody, hframed⟩

end Lines

/-- A new connection in any state of the bridge. -/
def newLink (trace : Trace Session) : Link Session where
  conn := Conn.init
  trace := trace

/-- Every byte stream of a connection is framed exactly if all its terminated lines fit. -/
theorem stream_framed_iff (hooks : Nat → Hw) (trace : Trace Session) (bytes : List UInt8) :
    StreamFramed hooks (newLink trace) bytes ↔
      ∀ pre body, TerminatedLine bytes pre body → FitsLine body :=
  streamFramed_iff hooks rfl bytes

/-- 2048 blanks in front of a command. -/
def paddedStop : List UInt8 :=
  List.replicate 2048 0x20 ++
    "\x7b\"request_id\":1,\"cmd\":\"stop_all\"\x7d".toList.map fun c => UInt8.ofNat c.toNat

/-- The line is answered twice, and its end is handled as a command. -/
theorem paddedStop_not_framed :
    ¬ StreamFramed (fun _ => okHw) (newLink connected.trace) (paddedStop ++ [10]) := by
  rw [streamFramed_iff (fun _ => okHw) rfl]
  intro h
  have hnewline : (10 : UInt8) ∉ paddedStop := by decide +kernel
  have hfits := h [] paddedStop ⟨⟨[], rfl⟩, Or.inl rfl, hnewline⟩
  have hlong : 2047 < (visible paddedStop).length := by decide +kernel
  exact absurd hfits.1 (Nat.not_le.2 hlong)

end Bridge
end Sdr
