import Sdr.Fpga.AxisAsyncFifo

/-!
# FifoLossless — no word is lost, repeated or overwritten in `axis_async_fifo`

The abstract picture behind the two clock domains is a pair of growing counters, words pushed and
words popped, and the *stale views* each side has of the other side's counter: two synchroniser
stages and, one edge later still, the registered `s_full` / `m_empty` flag.  `Counters` is that
picture, with the one chain of inequalities that makes the ring safe as its field:

`seen3 ≤ seen2 ≤ seen1 ≤ popped ≤ made3 ≤ made2 ≤ made1 ≤ pushed ≤ seen3 + depth`.

`Represents` ties the registers to the counters through the Gray code, `represents_step` shows that
every instant moves the counters along, and `Holds` adds the words themselves.
-/

namespace Sdr
namespace Fpga
namespace AxisAsyncFifo

open Lib

variable {width addrWidth : Nat}

/-! ## Counters and stale views -/

/-- Words pushed and popped, with the stale views behind the flags of a ring of `depth` slots. -/
structure Counters (depth : Nat) where
  pushed : Nat
  popped : Nat
  seen1 : Nat
  seen2 : Nat
  seen3 : Nat
  made1 : Nat
  made2 : Nat
  made3 : Nat
  seen_chain : seen3 ≤ seen2 ∧ seen2 ≤ seen1 ∧ seen1 ≤ popped
  popped_le : popped ≤ made3
  made_chain : made3 ≤ made2 ∧ made2 ≤ made1 ∧ made1 ≤ pushed
  pushed_le : pushed ≤ seen3 + depth

namespace Counters

variable {depth : Nat}

/-- Both sides reset: nothing pushed, nothing popped, nothing seen. -/
def zero (depth : Nat) : Counters depth where
  pushed := 0
  popped := 0
  seen1 := 0
  seen2 := 0
  seen3 := 0
  made1 := 0
  made2 := 0
  made3 := 0
  seen_chain := by simp
  popped_le := by simp
  made_chain := by simp
  pushed_le := by simp

/-- One instant.  `dp` words are pushed and `dq` popped; a side whose clock rises takes a new view
of the other side, somewhere between its counter before and after the instant. -/
def advance (c : Counters depth) (sClk mClk : Bool) (dp dq sView mView : Nat)
    (hdp : c.pushed + dp ≤ c.seen3 + depth) (hdq : c.popped + dq ≤ c.made3)
    (hs : c.popped ≤ sView ∧ sView ≤ c.popped + dq)
    (hm : c.pushed ≤ mView ∧ mView ≤ c.pushed + dp) : Counters depth where
  pushed := c.pushed + dp
  popped := c.popped + dq
  seen1 := if sClk then sView else c.seen1
  seen2 := if sClk then c.seen1 else c.seen2
  seen3 := if sClk then c.seen2 else c.seen3
  made1 := if mClk then mView else c.made1
  made2 := if mClk then c.made1 else c.made2
  made3 := if mClk then c.made2 else c.made3
  seen_chain := by
    have := c.seen_chain
    cases sClk <;> simp <;> omega
  popped_le := by
    have := c.made_chain
    cases mClk <;> simp <;> omega
  made_chain := by
    have := c.made_chain
    cases mClk <;> simp <;> omega
  pushed_le := by
    have := c.seen_chain
    cases sClk <;> simp <;> omega

/-- The ring never holds more than it has slots. -/
theorem pushed_le_popped_add (c : Counters depth) : c.pushed ≤ c.popped + depth := by
  have h1 := c.seen_chain
  have h2 := c.pushed_le
  omega

theorem popped_le_pushed (c : Counters depth) : c.popped ≤ c.pushed := by
  have h1 := c.made_chain
  have h2 := c.popped_le
  omega

end Counters

/-! ## Registers against counters -/

/-- The registers hold the counters modulo `2 ^ (addrWidth + 1)`, the flags compare stale views. -/
structure Represents (s : State width addrWidth) (c : Counters (2 ^ addrWidth)) : Prop where
  sBin : s.sBin = BitVec.ofNat (addrWidth + 1) c.pushed
  sGray : s.sGray = Gray.encode (BitVec.ofNat (addrWidth + 1) c.pushed)
  sGrayM1 : s.sGrayM1 = Gray.encode (BitVec.ofNat (addrWidth + 1) c.seen1)
  sGrayM2 : s.sGrayM2 = Gray.encode (BitVec.ofNat (addrWidth + 1) c.seen2)
  mBin : s.mBin = BitVec.ofNat (addrWidth + 1) c.popped
  mGray : s.mGray = Gray.encode (BitVec.ofNat (addrWidth + 1) c.popped)
  mGrayS1 : s.mGrayS1 = Gray.encode (BitVec.ofNat (addrWidth + 1) c.made1)
  mGrayS2 : s.mGrayS2 = Gray.encode (BitVec.ofNat (addrWidth + 1) c.made2)
  sFull : s.sFull = decide (c.pushed = c.seen3 + 2 ^ addrWidth)
  mEmpty : s.mEmpty = decide (c.popped = c.made3)

theorem represents_reset (mem : BitVec addrWidth → BitVec width) :
    Represents (resetState mem) (Counters.zero (2 ^ addrWidth)) := by
  have hpos : 0 ≠ 2 ^ addrWidth := (Nat.two_pow_pos addrWidth).ne
  constructor <;> simp [resetState, Counters.zero, Gray.encode, hpos]

theorem ofNat_add_toNat (w a : Nat) (b : Bool) :
    BitVec.ofNat w a + (BitVec.ofBool b).setWidth w = BitVec.ofNat w (a + b.toNat) := by
  cases b with
  | false =>
      simp
  | true =>
      apply BitVec.eq_of_toNat_eq
      simp

/-- Sampling a counter that moves by at most one yields a count between its two values. -/
theorem exists_pick_view {w a d : Nat} (hd : d ≤ 1) (sel : BitVec w) :
    ∃ v, (a ≤ v ∧ v ≤ a + d) ∧
      Gray.pick sel (Gray.encode (BitVec.ofNat w a)) (Gray.encode (BitVec.ofNat w (a + d))) =
        Gray.encode (BitVec.ofNat w v) := by
  rcases Nat.le_one_iff_eq_zero_or_eq_one.1 hd with rfl | rfl
  · exact ⟨a, by omega, by simp⟩
  · -- One Gray bit differs, so any mixture of the two codes is one of them.
    rw [Gray.ofNat_succ]
    rcases Gray.pick_encode_succ sel (BitVec.ofNat w a) with h | h
    · exact ⟨a, by omega, h⟩
    · refine ⟨a + 1, by omega, ?_⟩
      rw [h, ← Gray.ofNat_succ]

/-- The full comparison adds half a turn to the view of the read pointer. -/
theorem invertTop_encode (haddr : 1 ≤ addrWidth) (x : BitVec (addrWidth + 1)) :
    invertTop (Gray.encode x) = Gray.encode (x + BitVec.twoPow (addrWidth + 1) addrWidth) := by
  apply BitVec.eq_of_getLsbD_eq
  intro i hi
  rw [Gray.getLsbD_encode_add_half]
  simp only [invertTop, BitVec.getLsbD_setWidth, BitVec.getLsbD_append, BitVec.getLsbD_extractLsb',
    BitVec.getLsbD_not]
  -- Only the two top bits are inverted, and adding half a turn flips just those.
  by_cases hlow : i < addrWidth - 1
  · have hne : ¬(i = addrWidth ∨ i + 1 = addrWidth) := by omega
    simp [hi, hlow, hne]
  · have htop : i = addrWidth ∨ i + 1 = addrWidth := by omega
    have hidx : addrWidth - 1 + (i - (addrWidth - 1)) = i := by omega
    have htwo : i - (addrWidth - 1) < 2 := by omega
    simp [hi, hlow, htop, hidx, htwo]

section Step

variable {s : State width addrWidth} {c : Counters (2 ^ addrWidth)} {t : Tick width addrWidth}

theorem sBinNext_eq (h : Represents s c) :
    sBinNext s t = BitVec.ofNat (addrWidth + 1) (c.pushed + (sPush s t).toNat) := by
  rw [sBinNext, h.sBin, ofNat_add_toNat]

theorem mBinNext_eq (h : Represents s c) :
    mBinNext s t = BitVec.ofNat (addrWidth + 1) (c.popped + (mPop s t).toNat) := by
  rw [mBinNext, h.mBin, ofNat_add_toNat]

/-- A push is only taken while the stale view leaves a free slot. -/
theorem pushed_add_le (h : Represents s c) :
    c.pushed + (sPush s t).toNat ≤ c.seen3 + 2 ^ addrWidth := by
  have hle := c.pushed_le
  cases hpush : sPush s t with
  | false =>
      simpa using hle
  | true =>
      have hfull : s.sFull = false := by
        simp [sPush] at hpush
        exact hpush.2
      have hne : c.pushed ≠ c.seen3 + 2 ^ addrWidth := by
        simpa [h.sFull] using hfull
      simp only [Bool.toNat_true]
      omega

/-- A pop is only taken of a word the stale view has already seen. -/
theorem popped_add_le (h : Represents s c) :
    c.popped + (mPop s t).toNat ≤ c.made3 := by
  have hle := c.popped_le
  cases hpop : mPop s t with
  | false =>
      simpa using hle
  | true =>
      have hempty : s.mEmpty = false := by
        simp [mPop] at hpop
        exact hpop.2
      have hne : c.popped ≠ c.made3 := by
        simpa [h.mEmpty] using hempty
      simp only [Bool.toNat_true]
      omega

theorem fullNext_eq (haddr : 1 ≤ addrWidth) (h : Represents s c) :
    fullNext s t = decide (c.pushed + (sPush s t).toNat = c.seen2 + 2 ^ addrWidth) := by
  have hchain := c.seen_chain
  have hmade := c.made_chain
  have hpop := c.popped_le
  have hpush := pushed_add_le (t := t) h
  have hpow : 2 ^ (addrWidth + 1) = 2 * 2 ^ addrWidth := by rw [Nat.pow_succ, Nat.mul_comm]
  have hpos : 0 < 2 ^ addrWidth := Nat.two_pow_pos addrWidth
  have hhalf : BitVec.ofNat (addrWidth + 1) c.seen2 + BitVec.twoPow (addrWidth + 1) addrWidth =
      BitVec.ofNat (addrWidth + 1) (c.seen2 + 2 ^ addrWidth) := by
    apply BitVec.eq_of_toNat_eq
    simp
  -- Both counts lie within one turn of the ring, where equal residues mean equal counts.
  have hwin := Gray.ofNat_inj_window (w := addrWidth + 1)
    (a := c.pushed + (sPush s t).toNat) (b := c.seen2 + 2 ^ addrWidth) (by omega) (by omega)
  rw [fullNext, sGrayNext, sBinNext_eq h, h.sGrayM2, invertTop_encode haddr, hhalf, beq_eq_decide]
  exact decide_eq_decide.2 (Gray.encode_inj.trans hwin)

theorem emptyNext_eq (h : Represents s c) :
    emptyNext s t = decide (c.popped + (mPop s t).toNat = c.made2) := by
  have hchain := c.made_chain
  have hseen := c.seen_chain
  have hfull := c.pushed_le
  have hpop := popped_add_le (t := t) h
  have hpow : 2 ^ (addrWidth + 1) = 2 * 2 ^ addrWidth := by rw [Nat.pow_succ, Nat.mul_comm]
  have hpos : 0 < 2 ^ addrWidth := Nat.two_pow_pos addrWidth
  have hwin := Gray.ofNat_inj_window (w := addrWidth + 1)
    (a := c.popped + (mPop s t).toNat) (b := c.made2) (by omega) (by omega)
  rw [emptyNext, mGrayNext, mBinNext_eq h, h.mGrayS2, beq_eq_decide]
  exact decide_eq_decide.2 (Gray.encode_inj.trans hwin)

theorem sGrayAfter_eq (h : Represents s c) (hr : NoReset t) :
    sGrayAfter s t =
      Gray.encode (BitVec.ofNat (addrWidth + 1) (c.pushed + (t.sClk && sPush s t).toNat)) := by
  cases hclk : t.sClk with
  | false =>
      simp [sGrayAfter, hclk, h.sGray]
  | true =>
      simp [sGrayAfter, hclk, hr.1, sGrayNext, sBinNext_eq h]

theorem mGrayAfter_eq (h : Represents s c) (hr : NoReset t) :
    mGrayAfter s t =
      Gray.encode (BitVec.ofNat (addrWidth + 1) (c.popped + (t.mClk && mPop s t).toNat)) := by
  cases hclk : t.mClk with
  | false =>
      simp [mGrayAfter, hclk, h.mGray]
  | true =>
      simp [mGrayAfter, hclk, hr.2, mGrayNext, mBinNext_eq h]

/-- Every instant without reset advances the counters, whatever the samplers read. -/
theorem represents_advance (haddr : 1 ≤ addrWidth) (h : Represents s c) (hr : NoReset t) :
    ∃ sView mView hdp hdq hs hm,
      Represents (step s t)
        (c.advance t.sClk t.mClk (t.sClk && sPush s t).toNat (t.mClk && mPop s t).toNat sView mView
          hdp hdq hs hm) := by
  -- A side whose clock does not rise pushes or pops nothing.
  have hdp : c.pushed + (t.sClk && sPush s t).toNat ≤ c.seen3 + 2 ^ addrWidth := by
    have hle := pushed_add_le (t := t) h
    cases t.sClk <;> simp <;> omega
  have hdq : c.popped + (t.mClk && mPop s t).toNat ≤ c.made3 := by
    have hle := popped_add_le (t := t) h
    cases t.mClk <;> simp <;> omega
  rcases exists_pick_view (w := addrWidth + 1) (a := c.popped) (Bool.toNat_le (t.mClk && mPop s t))
    t.sSees with ⟨sView, hsView, hsPick⟩
  rcases exists_pick_view (w := addrWidth + 1) (a := c.pushed) (Bool.toNat_le (t.sClk && sPush s t))
    t.mSees with ⟨mView, hmView, hmPick⟩
  -- The first synchroniser flops hold a count somewhere between before and after.
  have hsFlop : Gray.pick t.sSees (Gray.encode (BitVec.ofNat (addrWidth + 1) c.popped))
      (mGrayAfter s t) = Gray.encode (BitVec.ofNat (addrWidth + 1) sView) := by
    rw [mGrayAfter_eq h hr, hsPick]
  have hmFlop : Gray.pick t.mSees (Gray.encode (BitVec.ofNat (addrWidth + 1) c.pushed))
      (sGrayAfter s t) = Gray.encode (BitVec.ofNat (addrWidth + 1) mView) := by
    rw [sGrayAfter_eq h hr, hmPick]
  refine ⟨sView, mView, hdp, hdq, hsView, hmView, ?_⟩
  -- A side whose clock does not rise keeps its registers and its views.
  rcases Bool.eq_false_or_eq_true t.sClk with hs | hs <;>
    rcases Bool.eq_false_or_eq_true t.mClk with hm | hm <;>
    constructor <;>
    simp [step, sEdge, mEdge, hs, hm, hr.1, hr.2, Counters.advance, h.sBin, h.sGray, h.sGrayM1,
      h.sGrayM2, h.mBin, h.mGray, h.mGrayS1, h.mGrayS2, h.sFull, h.mEmpty, hsFlop, hmFlop,
      sGrayNext, mGrayNext, sBinNext_eq h, mBinNext_eq h, fullNext_eq haddr h, emptyNext_eq h]

theorem represents_step (haddr : 1 ≤ addrWidth) (h : Represents s c) (hr : NoReset t) :
    ∃ c' : Counters (2 ^ addrWidth),
      c'.pushed = c.pushed + (t.sClk && sPush s t).toNat ∧
      c'.popped = c.popped + (t.mClk && mPop s t).toNat ∧
      Represents (step s t) c' := by
  obtain ⟨sView, mView, hdp, hdq, hs, hm, hrep⟩ := represents_advance haddr h hr
  exact ⟨_, rfl, rfl, hrep⟩

end Step

/-! ## The words -/

/-- The words behind the counters: what was popped is a prefix of what was pushed, and the memory
still holds every word in between at its slot. -/
structure Holds (ins outs : List (BitVec width)) (s : State width addrWidth)
    (c : Counters (2 ^ addrWidth)) : Prop where
  represents : Represents s c
  length_ins : ins.length = c.pushed
  outs_eq : outs = ins.take c.popped
  stored : ∀ i, c.popped ≤ i → i < c.pushed → ins[i]? = some (s.mem (BitVec.ofNat addrWidth i))

theorem setWidth_ofNat_succ (n a : Nat) :
    (BitVec.ofNat (n + 1) a).setWidth n = BitVec.ofNat n a := by
  apply BitVec.eq_of_toNat_eq
  simp

section Words

variable {ins outs : List (BitVec width)} {s : State width addrWidth} {c : Counters (2 ^ addrWidth)}
  {t : Tick width addrWidth}

theorem pushed_eq (hr : NoReset t) :
    pushed s t = if t.sClk && sPush s t then [t.sTdata] else [] := by
  simp [pushed, sPush, sTready, hr.1]

theorem popped_eq (hr : NoReset t) :
    popped s t = if t.mClk && mPop s t then [mTdata s] else [] := by
  simp [popped, mPop, mTvalid, hr.2]

/-- The memory after an instant: one slot is written when a word is pushed. -/
theorem step_mem (hr : NoReset t) :
    (step s t).mem =
      if t.sClk && sPush s t then
        Function.update s.mem (s.sBin.setWidth addrWidth) t.sTdata
      else s.mem := by
  cases hs : t.sClk <;> cases hm : t.mClk <;> simp [step, sEdge, mEdge, hs, hm, hr.1, hr.2]

/-- The popped word is the next one in the order of pushing. -/
theorem popped_word (h : Holds ins outs s c) (hpop : (t.mClk && mPop s t) = true) :
    ins[c.popped]? = some (mTdata s) := by
  have hlt := popped_add_le (t := t) h.represents
  have hmPop : mPop s t = true := by
    simp only [Bool.and_eq_true] at hpop
    exact hpop.2
  have hmade := c.made_chain
  rw [hmPop, Bool.toNat_true] at hlt
  -- `m_empty` is low, so the word under the read pointer was pushed and is still stored.
  rw [h.stored c.popped (Nat.le_refl _) (by omega), mTdata, h.represents.mBin, setWidth_ofNat_succ]

/-- A slot still to be read is not the one a push overwrites. -/
theorem slot_ne (h : Represents s c) (hpush : (t.sClk && sPush s t) = true) {i : Nat}
    (hi : c.popped ≤ i) (hlt : i < c.pushed) :
    BitVec.ofNat addrWidth i ≠ s.sBin.setWidth addrWidth := by
  intro heq
  have hsPush : sPush s t = true := by
    simp only [Bool.and_eq_true] at hpush
    exact hpush.2
  have hfree := pushed_add_le (t := t) h
  have hseen := c.seen_chain
  rw [hsPush, Bool.toNat_true] at hfree
  -- Equal slots would be a whole turn apart, but the ring is not full.
  rw [h.sBin, setWidth_ofNat_succ] at heq
  have := (Gray.ofNat_inj_window (by omega) (by omega)).1 heq
  omega

theorem holds_step (haddr : 1 ≤ addrWidth) (h : Holds ins outs s c) (hr : NoReset t) :
    ∃ c' : Counters (2 ^ addrWidth),
      Holds (ins ++ pushed s t) (outs ++ popped s t) (step s t) c' := by
  rcases represents_step haddr h.represents hr with ⟨c', hpushed, hpopped, hrep⟩
  refine ⟨c', hrep, ?_, ?_, ?_⟩
  · rw [hpushed, pushed_eq hr]
    cases t.sClk && sPush s t <;> simp [h.length_ins]
  · -- The old prefix, then the word under the read pointer.
    have hle : c.popped ≤ ins.length := by
      rw [h.length_ins]
      exact c.popped_le_pushed
    rw [hpopped, popped_eq hr, h.outs_eq]
    cases hpop : (t.mClk && mPop s t) with
    | false =>
        simp [List.take_append_of_le_length hle]
    | true =>
        have hword := popped_word h hpop
        have hlt : c.popped < ins.length := (List.getElem?_eq_some_iff.1 hword).1
        rw [Bool.toNat_true, List.take_append_of_le_length (by omega), List.take_add_one, hword]
        simp
  · -- Every word still inside is at its slot.
    intro i hi hlt
    rw [hpopped] at hi
    rw [hpushed] at hlt
    rw [step_mem hr, pushed_eq hr]
    cases hpush : (t.sClk && sPush s t) with
    | false =>
        rw [hpush] at hlt
        simpa using h.stored i (by omega) (by simpa using hlt)
    | true =>
        rw [hpush, Bool.toNat_true] at hlt
        by_cases hnew : i = c.pushed
        · -- The slot just written.
          simp [hnew, ← h.length_ins, h.represents.sBin]
        · have hold : i < c.pushed := by omega
          have hne := slot_ne h.represents hpush (i := i) (by omega) hold
          have hlen : i < ins.length := by
            rw [h.length_ins]
            exact hold
          rw [List.getElem?_append_left hlen, h.stored i (by omega) hold]
          simp [Function.update_of_ne hne]

end Words

/-! ## Runs from reset -/

theorem holds_run (haddr : 1 ≤ addrWidth) (mem : BitVec addrWidth → BitVec width)
    (ts : List (Tick width addrWidth)) (hts : ∀ t ∈ ts, NoReset t) :
    ∃ c : Counters (2 ^ addrWidth),
      Holds (emits step pushed (resetState mem) ts) (emits step popped (resetState mem) ts)
        (runFrom step (resetState mem) ts) c := by
  have hrun : Along step (fun _ t => NoReset t) (resetState mem) ts :=
    along_of_forall (fun _ t ht => hts t ht)
  refine history_invariant
    (P := fun ts s => ∃ c : Counters (2 ^ addrWidth),
      Holds (emits step pushed (resetState mem) ts) (emits step popped (resetState mem) ts) s c)
    ?_ ?_ ts hrun
  · exact ⟨Counters.zero (2 ^ addrWidth), represents_reset mem, rfl, rfl, by simp [Counters.zero]⟩
  · -- One instant further.
    intro ts t hts ht
    rcases hts with ⟨c, hc⟩
    rw [emits_snoc, emits_snoc]
    exact holds_step haddr hc ht

/-- `axis_async_fifo` is a lossless FIFO: along every run from the common reset, over every
interleaving of the two clocks and every pattern of `s_tvalid` and `m_tready`, the words popped are
a prefix of the words pushed, and at most `2 ^ addrWidth` words are inside. -/
theorem popped_prefix_pushed (haddr : 2 ≤ addrWidth) (mem : BitVec addrWidth → BitVec width)
    (ts : List (Tick width addrWidth)) (hts : ∀ t ∈ ts, NoReset t) :
    emits step popped (resetState mem) ts <+: emits step pushed (resetState mem) ts ∧
      (emits step pushed (resetState mem) ts).length ≤
        (emits step popped (resetState mem) ts).length + 2 ^ addrWidth := by
  rcases holds_run (by omega) mem ts hts with ⟨c, hc⟩
  constructor
  · rw [hc.outs_eq]
    exact List.take_prefix _ _
  · have hcap := c.pushed_le_popped_add
    have hle := c.popped_le_pushed
    rw [hc.outs_eq, List.length_take, hc.length_ins]
    omega

/-- Seven instants with both clocks rising together: a word offered at every one of them, the
reader always ready, and samplers that read the odd bits late. -/
def sevenTicks : List (Tick 8 2) :=
  (List.range 7).map fun i =>
    { sClk := true, sRst := false, sTdata := BitVec.ofNat 8 (0x40 + i), sTvalid := true
      mClk := true, mRst := false, mTready := true
      sSees := 0b101, mSees := 0b101 }

theorem popped_prefix_pushed_sevenTicks :
    emits step popped (resetState (fun _ => 0)) sevenTicks = [0x40, 0x41, 0x42] ∧
      emits step popped (resetState (fun _ => 0)) sevenTicks <+:
        emits step pushed (resetState (fun _ => 0)) sevenTicks ∧
      (emits step pushed (resetState (fun _ => 0)) sevenTicks).length ≤
        (emits step popped (resetState (fun _ => 0)) sevenTicks).length + 2 ^ 2 :=
  ⟨by decide, popped_prefix_pushed (by decide) (fun _ => 0) sevenTicks (by
    intro t ht
    simp only [sevenTicks, List.mem_map] at ht
    rcases ht with ⟨i, _, rfl⟩
    exact ⟨rfl, rfl⟩)⟩

end AxisAsyncFifo
end Fpga
end Sdr
