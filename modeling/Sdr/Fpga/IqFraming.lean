import Sdr.Fpga.IqPacketizer

/-!
# IqFraming — what the packetizer's output stream looks like

The output register makes every word visible one edge late, so the analysis is done on the words
*put into* the register (`put`); `accepted_append_pending` says that the words accepted so far are
those, less the one still waiting.

`Framed` is the run invariant: the words put so far are whole packets followed by the part of the
current packet that the registers describe.  A streaming step always keeps it.  A step that disables
or reconfigures the packetizer keeps it only at a packet boundary (`AtBoundary`), because the code
drops the rest of the current packet without ever closing it with `m_axis_tlast`.
-/

namespace Sdr
namespace Fpga
namespace IqPacketizer

open Lib

/-! ## Packets -/

/-- A word that does not close a packet. -/
def plain (data : BitVec 32) : Word :=
  { data := data, keep := 0xf, last := false }

/-- A word that closes a packet. -/
def closing (data : BitVec 32) : Word :=
  { data := data, keep := 0xf, last := true }

/-- The sixteen header words that the registers describe. -/
def headerWords (p : Params) (s : State) : List (BitVec 32) :=
  (List.range 16).map (headerWord p s)

/-- A whole packet: the registers its header was read from, and its IQ words, the last one apart. -/
structure Packet where
  regs : State
  samples : List (BitVec 32)
  final : BitVec 32

namespace Packet

def words (p : Params) (k : Packet) : List Word :=
  (headerWords p k.regs).map plain ++ k.samples.map plain ++ [closing k.final]

/-- The packet carries as many IQ words as a frame has. -/
def Full (p : Params) (k : Packet) : Prop :=
  k.samples.length + 1 = p.frameSamples.toNat

theorem length_words {p : Params} {k : Packet} (h : k.Full p) :
    (k.words p).length = 16 + p.frameSamples.toNat := by
  simp [words, headerWords]
  unfold Full at h
  omega

end Packet

/-- The words of the current packet that are already put out. -/
def partialWords (p : Params) (s : State) (current : List (BitVec 32)) : List Word :=
  match s.state with
  | .header => ((List.range s.headerIndex.toNat).map (headerWord p s)).map plain
  | .payload => (headerWords p s).map plain ++ current.map plain
  | _ => []

/-! ## Words put into the output register -/

def put (p : Params) (s : State) (i : Inputs) : List Word :=
  if Streaming i ∧ outReady s i = true then
    match s.state with
    | .header => [plain (headerWord p s s.headerIndex.toNat)]
    | .payload =>
        if i.sAxisTvalid then
          if s.payloadCount = p.frameSamples - 1 then
            [closing i.sAxisTdata]
          else
            -- The source leaves `m_axis_tlast` as the draining leaves it.
            [{ plain i.sAxisTdata with last := (drain s i).mAxisTlast }]
        else
          []
    | _ => []
  else
    []

@[simp] theorem headerWord_drain (p : Params) (s : State) (i : Inputs) (k : Nat) :
    headerWord p (drain s i) k = headerWord p s k := by
  unfold drain
  split_ifs
  · rfl
  · rfl

theorem drain_fields (s : State) (i : Inputs) :
    (drain s i).state = s.state ∧ (drain s i).headerIndex = s.headerIndex ∧
      (drain s i).payloadCount = s.payloadCount := by
  unfold drain
  split_ifs <;> simp

/-- Draining hands over the pending word exactly when it is accepted. -/
theorem accepted_append_pending_drain (s : State) (i : Inputs) :
    accepted s i ++ pending (drain s i) = pending s := by
  cases hv : s.mAxisTvalid <;> cases hr : i.mAxisTready <;>
    simp [accepted, pending, drain, hv, hr]

theorem pending_drain_of_ready {s : State} {i : Inputs} (h : outReady s i = true) :
    pending (drain s i) = [] := by
  cases hv : s.mAxisTvalid <;> cases hr : i.mAxisTready <;>
    simp_all [outReady, pending, drain]

theorem step_streaming {p : Params} {s : State} {i : Inputs} (hi : Streaming i) :
    step p s i = if outReady s i then advance p (drain s i) i else drain s i := by
  simp [step, hi.1, hi.2.1, hi.2.2]

theorem putPayload_last {p : Params} {s : State} {i : Inputs}
    (h : s.payloadCount = p.frameSamples - 1) :
    pending (putPayload p s i) = [closing i.sAxisTdata] := by
  unfold putPayload
  rw [if_pos h]
  rfl

theorem putPayload_more {p : Params} {s : State} {i : Inputs}
    (h : ¬s.payloadCount = p.frameSamples - 1) :
    pending (putPayload p s i) = [{ plain i.sAxisTdata with last := s.mAxisTlast }] := by
  unfold putPayload
  rw [if_neg h]
  rfl

/-- The words put are those the output register holds right after the edge. -/
theorem pending_advance_drain (p : Params) {s : State} {i : Inputs} (hi : Streaming i)
    (hready : outReady s i = true) : pending (advance p (drain s i) i) = put p s i := by
  have hempty := pending_drain_of_ready hready
  rcases drain_fields s i with ⟨hstate, hindex, hcount⟩
  have hput : Streaming i ∧ outReady s i = true := ⟨hi, hready⟩
  unfold advance put
  rw [hstate, if_pos hput]
  cases s.state with
  | idle =>
      exact hempty
  | header =>
      -- The word is read from the drained registers, which have the same header.
      have hword : pending (putHeader p (drain s i)) =
          [plain (headerWord p (drain s i) (drain s i).headerIndex.toNat)] := rfl
      rw [headerWord_drain, hindex] at hword
      exact hword
  | payload =>
      cases hv : i.sAxisTvalid with
      | false =>
          exact hempty
      | true =>
          by_cases hl : s.payloadCount = p.frameSamples - 1
          · simp only [if_true, if_pos hl]
            exact putPayload_last (by rw [hcount, hl])
          · simp only [if_true, if_neg hl]
            exact putPayload_more (by rw [hcount]; exact hl)
  | other =>
      exact hempty

/-- One edge: what was waiting and what is put is what is accepted and what waits then. -/
theorem accepted_append_pending (p : Params) (s : State) (i : Inputs) (hrst : i.rst = false) :
    accepted s i ++ pending (step p s i) = pending s ++ put p s i := by
  have hdrain := accepted_append_pending_drain s i
  by_cases hstream : Streaming i ∧ outReady s i = true
  · rcases hstream with ⟨hi, hready⟩
    rw [pending_drain_of_ready hready, List.append_nil] at hdrain
    rw [step_streaming hi, if_pos hready, pending_advance_drain p hi hready, hdrain]
  · have hput : put p s i = [] := by
      unfold put
      rw [if_neg hstream]
    have hpending : pending (step p s i) = pending (drain s i) := by
      unfold step
      rw [hrst]
      simp only [Bool.false_eq_true, if_false]
      -- Without reset the step disables, reconfigures or stalls, and all three only drain.
      split_ifs with he hc hr
      · rfl
      · rfl
      · exact absurd ⟨⟨hrst, by simpa using he, by simpa using hc⟩, hr⟩ hstream
      · rfl
    rw [hput, hpending, hdrain, List.append_nil]

/-! ## The run invariant -/

/-- The words `out` are the whole packets `packets` and the started part of the next one. -/
structure Framed (p : Params) (out : List Word) (s : State) (packets : List Packet)
    (current : List (BitVec 32)) : Prop where
  out_eq : out = packets.flatMap (Packet.words p) ++ partialWords p s current
  full : ∀ k ∈ packets, k.Full p
  legal : s.state ≠ .other
  index_lt : s.state = .header → s.headerIndex.toNat < 16
  count_zero : s.state = .header → s.payloadCount = 0
  count_eq : s.state = .payload → current.length = s.payloadCount.toNat
  count_lt : s.state = .payload → s.payloadCount.toNat < p.frameSamples.toNat
  last_clear : s.state = .payload → s.mAxisTlast = false

/-- The whole packets after a streaming edge. -/
def nextPackets (p : Params) (s : State) (i : Inputs) (packets : List Packet)
    (current : List (BitVec 32)) : List Packet :=
  if outReady s i = true ∧ s.state = .payload ∧ i.sAxisTvalid = true ∧
      s.payloadCount = p.frameSamples - 1 then
    packets ++ [{ regs := s, samples := current, final := i.sAxisTdata }]
  else
    packets

/-- The IQ words of the current packet after a streaming edge. -/
def nextCurrent (p : Params) (s : State) (i : Inputs) (current : List (BitVec 32)) :
    List (BitVec 32) :=
  if outReady s i = true then
    match s.state with
    | .payload =>
        if i.sAxisTvalid = true then
          if s.payloadCount = p.frameSamples - 1 then [] else current ++ [i.sAxisTdata]
        else
          current
    | _ => []
  else
    current

theorem frameSamples_pos {p : Params} (hN : p.frameSamples ≠ 0) : 0 < p.frameSamples.toNat := by
  apply Nat.pos_of_ne_zero
  intro h0
  exact hN (BitVec.eq_of_toNat_eq h0)

section Step

variable {p : Params} {out : List Word} {s : State} {packets : List Packet}
  {current : List (BitVec 32)} {i : Inputs}

theorem partialWords_drain (p : Params) (s : State) (i : Inputs) (current : List (BitVec 32)) :
    partialWords p (drain s i) current = partialWords p s current := by
  rcases drain_fields s i with ⟨hstate, hindex, _⟩
  have hwords : headerWord p (drain s i) = headerWord p s := funext (headerWord_drain p s i)
  simp only [partialWords, headerWords, hstate, hindex, hwords]

theorem last_drain (h : s.mAxisTlast = false) : (drain s i).mAxisTlast = false := by
  unfold drain
  split_ifs
  · rfl
  · exact h

theorem framed_drain (h : Framed p out s packets current) :
    Framed p out (drain s i) packets current := by
  rcases drain_fields s i with ⟨hstate, hindex, hcount⟩
  refine ⟨?_, h.full, ?_, ?_, ?_, ?_, ?_, ?_⟩
  · rw [partialWords_drain]
    exact h.out_eq
  · rw [hstate]
    exact h.legal
  · rw [hstate, hindex]
    exact h.index_lt
  · rw [hstate, hcount]
    exact h.count_zero
  · rw [hstate, hcount]
    exact h.count_eq
  · rw [hstate, hcount]
    exact h.count_lt
  · intro hp
    rw [hstate] at hp
    exact last_drain (h.last_clear hp)

theorem nextPackets_of_not_ready (hready : ¬outReady s i = true) :
    nextPackets p s i packets current = packets := by
  unfold nextPackets
  rw [if_neg (fun hc => hready hc.1)]

theorem nextCurrent_of_not_ready (hready : ¬outReady s i = true) :
    nextCurrent p s i current = current := by
  unfold nextCurrent
  rw [if_neg hready]

/-- Starting a packet puts out nothing. -/
theorem framed_startPacket (h : Framed p out s packets current) (hs : s.state = .idle) :
    Framed p out (startPacket s i) packets [] := by
  have hout := h.out_eq
  simp only [partialWords, hs] at hout
  refine ⟨?_, h.full, ?_, ?_, ?_, ?_, ?_, ?_⟩
  · simpa [partialWords, startPacket] using hout
  · simp [startPacket]
  · simp [startPacket]
  · simp [startPacket]
  · simp [startPacket]
  · simp [startPacket]
  · simp [startPacket]

/-- A header word is put, and after the sixteenth the payload begins. -/
theorem framed_putHeader (hN : p.frameSamples ≠ 0) (h : Framed p out s packets current)
    (hs : s.state = .header) :
    Framed p (out ++ [plain (headerWord p s s.headerIndex.toNat)]) (putHeader p s) packets [] := by
  have hout := h.out_eq
  have hlt := h.index_lt hs
  have hzero := h.count_zero hs
  have hsame : headerWord p (putHeader p s) = headerWord p s := rfl
  have hpos := frameSamples_pos hN
  simp only [partialWords, hs] at hout
  -- The sixteenth word is index 15: the header is then complete and the payload begins.
  by_cases hidx : s.headerIndex = 15
  · have hstate : (putHeader p s).state = .payload := if_pos hidx
    have hcount : (putHeader p s).payloadCount = 0 := hzero
    refine ⟨?_, h.full, ?_, ?_, ?_, ?_, ?_, ?_⟩
    · rw [hout, hidx]
      simp only [partialWords, hstate, headerWords, hsame]
      simp [List.range_succ]
    · simp [hstate]
    · simp [hstate]
    · simp [hstate]
    · simp [hcount]
    · intro _
      simpa [hcount] using hpos
    · intro _
      rfl
  · have hstate : (putHeader p s).state = .header := if_neg hidx
    have hne : s.headerIndex.toNat ≠ 15 := by
      intro h15
      exact hidx (BitVec.eq_of_toNat_eq h15)
    -- The index is four bits wide, and below 15 it does not wrap.
    have hnext : (putHeader p s).headerIndex.toNat = s.headerIndex.toNat + 1 := by
      have hval : (putHeader p s).headerIndex = s.headerIndex + 1 := if_neg hidx
      rw [hval, BitVec.toNat_add]
      apply Nat.mod_eq_of_lt
      simp
      omega
    refine ⟨?_, h.full, ?_, ?_, ?_, ?_, ?_, ?_⟩
    · rw [hout]
      simp only [partialWords, hstate, hnext, hsame]
      simp [List.range_succ]
    · simp [hstate]
    · intro _
      rw [hnext]
      omega
    · intro _
      exact hzero
    · simp [hstate]
    · simp [hstate]
    · simp [hstate]

/-- The last IQ word closes the packet. -/
theorem framed_putPayload_last (h : Framed p out s packets current) (hs : s.state = .payload)
    (hl : s.payloadCount = p.frameSamples - 1) :
    Framed p (out ++ [closing i.sAxisTdata]) (putPayload p s i)
      (packets ++ [{ regs := s, samples := current, final := i.sAxisTdata }]) [] := by
  have hout := h.out_eq
  have hcount := h.count_eq hs
  have hlt := h.count_lt hs
  have hidle : (putPayload p s i).state = .idle := by
    unfold putPayload
    rw [if_pos hl]
  simp only [partialWords, hs] at hout
  refine ⟨?_, ?_, ?_, ?_, ?_, ?_, ?_, ?_⟩
  · rw [hout]
    simp [partialWords, hidle, Packet.words]
  · intro k hk
    rcases List.mem_append.1 hk with hk | hk
    · exact h.full k hk
    · simp only [List.mem_singleton] at hk
      rw [hk]
      -- The comparison with `FRAME_SAMPLES - 1` is made in 16 bits.
      have hsub : s.payloadCount.toNat = p.frameSamples.toNat - 1 := by
        rw [hl]
        have := p.frameSamples.isLt
        rw [BitVec.toNat_sub]
        simp
        omega
      simp only [Packet.Full, hcount, hsub]
      omega
  · simp [hidle]
  · simp [hidle]
  · simp [hidle]
  · simp [hidle]
  · simp [hidle]
  · simp [hidle]

/-- Any other IQ word is passed on and counted. -/
theorem framed_putPayload_more (h : Framed p out s packets current) (hs : s.state = .payload)
    (hl : ¬s.payloadCount = p.frameSamples - 1) :
    Framed p (out ++ [plain i.sAxisTdata]) (putPayload p s i) packets
      (current ++ [i.sAxisTdata]) := by
  have hout := h.out_eq
  have hcount := h.count_eq hs
  have hlt := h.count_lt hs
  have hbound := p.frameSamples.isLt
  have heq : putPayload p s i =
      { s with
        mAxisTdata := i.sAxisTdata
        mAxisTkeep := 0xf
        mAxisTvalid := true
        payloadCount := s.payloadCount + 1 } := by
    unfold putPayload
    rw [if_neg hl]
  have hstate : (putPayload p s i).state = .payload := by rw [heq, hs]
  have hsame : headerWord p (putPayload p s i) = headerWord p s := by
    rw [heq]
    rfl
  have hnext : (putPayload p s i).payloadCount.toNat = s.payloadCount.toNat + 1 := by
    rw [heq]
    simp only [BitVec.toNat_add]
    apply Nat.mod_eq_of_lt
    simp
    omega
  -- One more word still leaves room for the closing one.
  have hne : s.payloadCount.toNat + 1 ≠ p.frameSamples.toNat := by
    intro hlast
    apply hl
    apply BitVec.eq_of_toNat_eq
    rw [BitVec.toNat_sub]
    simp
    omega
  simp only [partialWords, hs] at hout
  refine ⟨?_, h.full, ?_, ?_, ?_, ?_, ?_, ?_⟩
  · rw [hout]
    simp [partialWords, hstate, headerWords, hsame]
  · simp [hstate]
  · simp [hstate]
  · simp [hstate]
  · intro _
    simp [hnext, hcount]
  · intro _
    omega
  · intro _
    rw [heq]
    exact h.last_clear hs

/-- The last IQ word at an edge that also drains the output.  The packet is recorded with the
registers from before the edge; draining them changes no header word. -/
theorem framed_putPayload_last_drain (h : Framed p out s packets current) (hs : s.state = .payload)
    (hl : s.payloadCount = p.frameSamples - 1) :
    Framed p (out ++ [closing i.sAxisTdata]) (putPayload p (drain s i) i)
      (packets ++ [{ regs := s, samples := current, final := i.sAxisTdata }]) [] := by
  rcases drain_fields s i with ⟨hstate, _, hcount⟩
  have hlast := framed_putPayload_last (i := i) (framed_drain (i := i) h) (by rw [hstate, hs])
    (by rw [hcount, hl])
  have hregs : headerWord p (drain s i) = headerWord p s := funext (headerWord_drain p s i)
  refine ⟨?_, ?_, hlast.legal, hlast.index_lt, hlast.count_zero, hlast.count_eq, hlast.count_lt,
    hlast.last_clear⟩
  · rw [hlast.out_eq]
    simp [Packet.words, headerWords, hregs]
  · intro k hk
    rcases List.mem_append.1 hk with hk | hk
    · exact h.full k hk
    · simp only [List.mem_singleton] at hk
      rw [hk]
      exact hlast.full { regs := drain s i, samples := current, final := i.sAxisTdata } (by simp)

/-- While the output register is held up nothing is put and no packet moves on. -/
theorem framed_stalled (h : Framed p out s packets current) (hready : ¬outReady s i = true) :
    Framed p (out ++ put p s i) (drain s i) (nextPackets p s i packets current)
      (nextCurrent p s i current) := by
  have hput : put p s i = [] := by
    unfold put
    rw [if_neg (fun hc => hready hc.2)]
  rw [hput, nextPackets_of_not_ready hready, nextCurrent_of_not_ready hready, List.append_nil]
  exact framed_drain h

/-- A streaming edge keeps the framing, and says which packets are whole after it. -/
theorem framed_step (hN : p.frameSamples ≠ 0) (h : Framed p out s packets current)
    (hi : Streaming i) :
    Framed p (out ++ put p s i) (step p s i) (nextPackets p s i packets current)
      (nextCurrent p s i current) := by
  rw [step_streaming hi]
  by_cases hready : outReady s i = true
  · have hd : Framed p out (drain s i) packets current := framed_drain h
    rcases drain_fields s i with ⟨hstate, hindex, hcount⟩
    have hput : Streaming i ∧ outReady s i = true := ⟨hi, hready⟩
    rw [if_pos hready]
    unfold put advance nextPackets nextCurrent
    rw [hstate, if_pos hput]
    simp only [hready, if_true, true_and]
    -- One case for each branch of the source's `case (state)`.
    cases hs : s.state with
    | idle =>
        simpa using framed_startPacket (i := i) hd (by rw [hstate, hs])
    | header =>
        have hword := framed_putHeader hN hd (by rw [hstate, hs])
        rw [headerWord_drain, hindex] at hword
        simpa using hword
    | payload =>
        cases hv : i.sAxisTvalid with
        | false =>
            simpa using hd
        | true =>
            by_cases hl : s.payloadCount = p.frameSamples - 1
            · simp only [if_true, true_and, if_pos hl]
              exact framed_putPayload_last_drain h hs hl
            · have hmore := framed_putPayload_more (i := i) hd (by rw [hstate, hs])
                (by rw [hcount]; exact hl)
              have hclear : (drain s i).mAxisTlast = false := hd.last_clear (by rw [hstate, hs])
              simp only [if_true, true_and, if_neg hl, hclear]
              exact hmore
    | other =>
        exact absurd hs h.legal
  · rw [if_neg hready]
    exact framed_stalled h hready

/-- No word of the current packet has been put out yet. -/
def AtBoundary (s : State) : Prop :=
  s.state = .idle ∨ (s.state = .header ∧ s.headerIndex = 0)

instance (s : State) : Decidable (AtBoundary s) :=
  inferInstanceAs (Decidable (s.state = .idle ∨ (s.state = .header ∧ s.headerIndex = 0)))

/-- At a packet boundary, disabling and reconfiguring leave whole packets behind. -/
theorem framed_abort (h : Framed p out s packets current) (hrst : i.rst = false)
    (hi : ¬Streaming i) (hb : AtBoundary s) : Framed p (out ++ put p s i) (step p s i) packets [] := by
  have hnone : partialWords p s current = [] := by
    rcases hb with hs | ⟨hs, hidx⟩
    · simp [partialWords, hs]
    · simp [partialWords, hs, hidx]
  have hput : put p s i = [] := by
    unfold put
    rw [if_neg (fun hc => hi hc.1)]
  have hidle : (step p s i).state = .idle := by
    unfold step
    rw [hrst]
    simp only [Bool.false_eq_true, if_false]
    split_ifs with he hc
    · rfl
    · rfl
    -- Enabled and unchanged would be streaming.
    all_goals exact absurd ⟨hrst, by simpa using he, by simpa using hc⟩ hi
  have hout := h.out_eq
  rw [hnone] at hout
  rw [hput]
  refine ⟨?_, h.full, ?_, ?_, ?_, ?_, ?_, ?_⟩
  · simpa [partialWords, hidle] using hout
  all_goals simp [hidle]

end Step

/-! ## Groups delimited by `m_axis_tlast` -/

/-- The closed groups of a word stream: each ends with the first word that has `tlast` set.  The
first argument holds the words of the group that is still open. -/
def groups : List Word → List Word → List (List Word)
  | _, [] => []
  | openGroup, w :: ws =>
      if w.last then (openGroup ++ [w]) :: groups [] ws else groups (openGroup ++ [w]) ws

theorem groups_append_plain {xs : List Word} (hxs : ∀ w ∈ xs, w.last = false)
    (openGroup ys : List Word) :
    groups openGroup (xs ++ ys) = groups (openGroup ++ xs) ys := by
  induction xs generalizing openGroup with
  | nil =>
      simp
  | cons w xs ih =>
      have hw : w.last = false := hxs w (by simp)
      have htail := ih (fun v hv => hxs v (by simp [hv])) (openGroup ++ [w])
      simpa [groups, hw] using htail

theorem mem_groups_append {xs : List Word} (openGroup ys : List Word) {g : List Word}
    (hg : g ∈ groups openGroup xs) : g ∈ groups openGroup (xs ++ ys) := by
  induction xs generalizing openGroup with
  | nil =>
      simp [groups] at hg
  | cons w xs ih =>
      simp only [groups, List.cons_append] at hg ⊢
      split_ifs at hg ⊢ with hw
      · rcases List.mem_cons.1 hg with hg | hg
        · exact List.mem_cons.2 (Or.inl hg)
        · exact List.mem_cons.2 (Or.inr (ih [] hg))
      · exact ih (openGroup ++ [w]) hg

theorem last_partialWords {p : Params} {s : State} {current : List (BitVec 32)} :
    ∀ w ∈ partialWords p s current, w.last = false := by
  intro w hw
  unfold partialWords at hw
  cases hs : s.state <;> simp only [hs] at hw
  · simp at hw
  · rcases List.mem_map.1 hw with ⟨d, _, rfl⟩
    rfl
  · rw [← List.map_append] at hw
    rcases List.mem_map.1 hw with ⟨d, _, rfl⟩
    rfl
  · simp at hw

/-- The groups of whole packets are the packets; an unfinished one forms no group. -/
theorem groups_flatMap_words (p : Params) (packets : List Packet) {tail : List Word}
    (htail : ∀ w ∈ tail, w.last = false) :
    groups [] (packets.flatMap (Packet.words p) ++ tail) = packets.map (Packet.words p) := by
  induction packets with
  | nil =>
      have hgroups := groups_append_plain htail [] []
      simpa [groups] using hgroups
  | cons k packets ih =>
      have hplain : ∀ w ∈ (headerWords p k.regs).map plain ++ k.samples.map plain, w.last = false := by
        intro w hw
        rw [← List.map_append] at hw
        rcases List.mem_map.1 hw with ⟨d, _, rfl⟩
        rfl
      have hsplit : (k :: packets).flatMap (Packet.words p) ++ tail =
          ((headerWords p k.regs).map plain ++ k.samples.map plain) ++
            (closing k.final :: (packets.flatMap (Packet.words p) ++ tail)) := by
        simp [Packet.words]
      rw [hsplit, groups_append_plain hplain]
      simp only [groups, closing, if_true, List.nil_append, List.map_cons, ih]
      rfl

/-- Every group closed by `m_axis_tlast` is one packet of `16 + FRAME_SAMPLES` words that begins
with sixteen header words. -/
def WholePackets (p : Params) (ws : List Word) : Prop :=
  ∀ g ∈ groups [] ws,
    g.length = 16 + p.frameSamples.toNat ∧
      ∃ regs : State, (g.take 16).map Word.data = headerWords p regs

theorem wholePackets_of_framed {p : Params} {out ws : List Word} {s : State}
    {packets : List Packet} {current : List (BitVec 32)} (h : Framed p out s packets current)
    (hws : ws <+: out) : WholePackets p ws := by
  intro g hg
  rcases hws with ⟨rest, hrest⟩
  have hmem : g ∈ groups [] out := by
    rw [← hrest]
    exact mem_groups_append [] rest hg
  rw [h.out_eq, groups_flatMap_words p packets last_partialWords] at hmem
  rcases List.mem_map.1 hmem with ⟨k, hk, rfl⟩
  refine ⟨Packet.length_words (h.full k hk), k.regs, ?_⟩
  have hlen : (headerWords p k.regs).length = 16 := by simp [headerWords]
  have htake : (k.words p).take 16 = (headerWords p k.regs).map plain := by
    rw [Packet.words, List.append_assoc]
    exact List.take_left' (by simp [hlen])
  rw [htake, List.map_map]
  exact List.map_id _

theorem framed_reset (p : Params) : Framed p [] resetState [] [] := by
  refine ⟨rfl, ?_, ?_, ?_, ?_, ?_, ?_, ?_⟩
  all_goals simp [resetState]

/-! ## Runs with reconfigurations -/

/-- No reset, and the packetizer is disabled or reconfigured only between packets. -/
def AbortsAtBoundary (s : State) (i : Inputs) : Prop :=
  i.rst = false ∧ (Streaming i ∨ AtBoundary s)

instance (s : State) (i : Inputs) : Decidable (AbortsAtBoundary s i) :=
  inferInstanceAs (Decidable (i.rst = false ∧ (Streaming i ∨ AtBoundary s)))

/-- What has been accepted along a run without reset is a prefix of what has been put. -/
theorem accepted_prefix_put (p : Params) {s : State} (hs : s.mAxisTvalid = false)
    {is : List Inputs} (his : Along (step p) (fun _ i => i.rst = false) s is) :
    emits (step p) accepted s is <+: emits (step p) (put p) s is := by
  have hkeep : emits (step p) accepted s is ++ pending (runFrom (step p) s is) =
      pending s ++ emits (step p) (put p) s is :=
    emits_conserve (fun s i hi => accepted_append_pending p s i hi) his
  have hempty : pending s = [] := by simp [pending, hs]
  rw [hempty, List.nil_append] at hkeep
  exact ⟨_, hkeep⟩

/-- Every `m_axis_tlast` group is a whole packet along every run from reset that disables and
reconfigures the packetizer only between packets. -/
theorem wholePackets_of_aborts_at_boundary (p : Params) (hN : p.frameSamples ≠ 0)
    (is : List Inputs) (his : Along (step p) AbortsAtBoundary resetState is) :
    WholePackets p (emits (step p) accepted resetState is) := by
  have hframed : ∃ packets current,
      Framed p (emits (step p) (put p) resetState is) (runFrom (step p) resetState is)
        packets current := by
    refine history_invariant
      (P := fun is s => ∃ packets current,
        Framed p (emits (step p) (put p) resetState is) s packets current)
      ⟨[], [], framed_reset p⟩ ?_ is his
    rintro is i ⟨packets, current, h⟩ ⟨hrst, hi⟩
    rw [emits_snoc]
    by_cases hstream : Streaming i
    · exact ⟨_, _, framed_step hN h hstream⟩
    · exact ⟨_, _, framed_abort h hrst hstream (hi.resolve_left hstream)⟩
  have hrst : Along (step p) (fun _ i => i.rst = false) resetState is := his.mono (fun _ _ h => h.1)
  rcases hframed with ⟨packets, current, h⟩
  exact wholePackets_of_framed h (accepted_prefix_put p rfl hrst)

/-- One edge with the stream enabled, an IQ word offered and the output ready. -/
def streamingInputs : Inputs where
  rst := false
  enable := true
  configChanged := false
  sAxisTdata := 0x00020001
  sAxisTvalid := true
  adcTimestampSeed := 1234
  frequencyHz := 98500000
  iqSampleRateHz := 1000000
  bandwidthHz := 250000
  flags := 1
  gainDbQ8 := 0
  decimation := 250
  mAxisTready := true

/-- The same edge while the configuration changes. -/
def reconfigureInputs : Inputs :=
  { streamingInputs with configChanged := true }

/-- A change of configuration after `n` streaming edges, and a packet's worth of edges after it. -/
def reconfigureAfter (n : Nat) : List Inputs :=
  List.replicate n streamingInputs ++ reconfigureInputs :: List.replicate 26 streamingInputs

theorem wholePackets_reconfigure_between_packets :
    ((groups [] (emits (step ⟨0, 8⟩) accepted resetState (reconfigureAfter 26))).map List.length =
        [24, 24]) ∧
      WholePackets ⟨0, 8⟩ (emits (step ⟨0, 8⟩) accepted resetState (reconfigureAfter 26)) :=
  ⟨by decide, wholePackets_of_aborts_at_boundary ⟨0, 8⟩ (by decide) (reconfigureAfter 26) (by decide)⟩

/-- A change of configuration after three header words leaves them in front of the next packet. -/
theorem not_wholePackets_reconfigure_in_header :
    ¬∀ (p : Params), p.frameSamples ≠ 0 → ∀ is : List Inputs, (∀ i ∈ is, i.rst = false) →
      WholePackets p (emits (step p) accepted resetState is) := by
  intro hall
  have hgroups : (groups [] (emits (step ⟨0, 8⟩) accepted resetState (reconfigureAfter 4))).map
      List.length = [27] := by decide
  have hwhole := hall ⟨0, 8⟩ (by decide) (reconfigureAfter 4) (by
    intro i hi
    simp only [reconfigureAfter, List.mem_append, List.mem_cons, List.mem_replicate] at hi
    rcases hi with ⟨_, rfl⟩ | rfl | ⟨_, rfl⟩ <;> rfl)
  have hmem : 27 ∈ (groups [] (emits (step ⟨0, 8⟩) accepted resetState (reconfigureAfter 4))).map
      List.length := by
    rw [hgroups]
    simp
  rcases List.mem_map.1 hmem with ⟨g, hg, hlen⟩
  have hbad := (hwhole g hg).1
  rw [hlen] at hbad
  exact absurd hbad (by decide)

end IqPacketizer
end Fpga
end Sdr
