import Sdr.Fpga.IqLink
import Sdr.Fpga.PacketProgress

/-!
# LinkProgress — what is closed is delivered

While both clocks rise together and the DMA is always ready, the views that the two sides of the FIFO
have of each other are a few words old (`Near`).  So the FIFO is never full, the packetizer is never
held up, and of the packets it has closed only the last few words are not yet delivered
(`closed_le_groups`).
-/

namespace Sdr
namespace Fpga

/-! ## The FIFO -/

namespace AxisAsyncFifo

open Lib

variable {width addrWidth depth : Nat}

/-- The views are a few words old, and the reader keeps up. -/
structure Counters.Near (c : Counters depth) : Prop where
  made : c.pushed ≤ c.made1 + 1 ∧ c.pushed ≤ c.made2 + 2 ∧ c.pushed ≤ c.made3 + 3
  seen : c.popped ≤ c.seen1 + 1 ∧ c.popped ≤ c.seen2 + 2 ∧ c.popped ≤ c.seen3 + 3
  kept : c.pushed ≤ c.popped + 4

theorem Counters.near_zero (depth : Nat) : (Counters.zero depth).Near := by
  constructor <;> simp [Counters.zero]

/-- Both clocks rise, out of reset, and the reader takes what it sees. -/
structure Lockstep (t : Tick width addrWidth) : Prop where
  sClk : t.sClk = true
  mClk : t.mClk = true
  quiet : NoReset t
  mTready : t.mTready = true

variable {s : State width addrWidth} {c : Counters (2 ^ addrWidth)} {t : Tick width addrWidth}

theorem near_step (haddr : 1 ≤ addrWidth) (h : Represents s c) (hn : c.Near) (ht : Lockstep t) :
    ∃ c' : Counters (2 ^ addrWidth), c'.pushed = c.pushed + (pushed s t).length ∧
      c'.popped = c.popped + (popped s t).length ∧ Represents (step s t) c' ∧ c'.Near := by
  obtain ⟨sView, mView, hdp, hdq, hs, hm, hrep⟩ := represents_advance haddr h ht.quiet
  have hpushed : (pushed s t).length = (t.sClk && sPush s t).toNat := by
    rw [pushed_eq ht.quiet]
    cases t.sClk && sPush s t <;> rfl
  have hpopped : (popped s t).length = (t.mClk && mPop s t).toNat := by
    rw [popped_eq ht.quiet]
    cases t.mClk && mPop s t <;> rfl
  -- What the reader has seen it takes.
  have htakes : c.popped < c.made3 → (t.mClk && mPop s t).toNat = 1 := by
    intro hlt
    have hempty : s.mEmpty = false := by
      rw [h.mEmpty, decide_eq_false_iff_not]
      omega
    simp [ht.mClk, mPop, ht.mTready, hempty]
  have hdp1 := Bool.toNat_le (t.sClk && sPush s t)
  have hdq1 := Bool.toNat_le (t.mClk && mPop s t)
  refine ⟨_, by rw [hpushed]; rfl, by rw [hpopped]; rfl, hrep, ?_⟩
  obtain ⟨⟨hmade1, hmade2, hmade3⟩, ⟨hseen1, hseen2, hseen3⟩, hkept⟩ := hn
  have hpopped_le := c.popped_le
  -- Every view moves on to what the one before it was, and the reader keeps its distance.
  constructor
  all_goals
    simp only [Counters.advance, ht.sClk, ht.mClk, if_true] at *
    omega

/-- So the writer is never held up. -/
theorem sTready_of_near (haddr : 8 ≤ 2 ^ addrWidth) (h : Represents s c) (hn : c.Near) :
    sTready s = true := by
  have hkept := hn.kept
  have hseen := hn.seen
  have hfull : s.sFull = false := by
    rw [h.sFull, decide_eq_false_iff_not]
    omega
  rw [sTready, hfull]
  rfl

end AxisAsyncFifo

/-! ## Groups -/

namespace IqPacketizer

variable {p : Params} {s : State} {i : Inputs}

theorem length_groups (openGroup ws : List Word) :
    (groups openGroup ws).length = ws.countP (·.last) := by
  induction ws generalizing openGroup with
  | nil =>
      rfl
  | cons w ws ih =>
      cases hlast : w.last with
      | false => simp [groups, hlast, ih]
      | true => simp [groups, hlast, ih]

end IqPacketizer

/-! ## The link -/

namespace IqLink

open Lib
open IqPacketizer (Word groups pending)
open AxisAsyncFifo (Represents Counters)

/-- Both clocks rise, the DMA is ready, and the core streams at this rate, if its sink is ready. -/
structure Lockstep (rate : BitVec 16) (t : Tick) : Prop where
  adcClk : t.adcClk = true
  axiClk : t.axiClk = true
  ctrlRst : t.ctrlRst = false
  mAxisIqTready : t.mAxisIqTready = true
  core : SdrPlCore.Flowing rate { t.core with mAxisIqTready := true }

/-- The packetizer gets rid of a word. -/
def accepted (s : State) (t : Tick) : List Word :=
  (packetizerFed s t).flatMap (IqPacketizer.accepted s.core.iq)

/-- A packet is whole after the instant. -/
def closed (s : State) (t : Tick) : List Unit :=
  SdrPlCore.closed s.core (coreInputs s t)

/-- The FIFO with little in it. -/
def Drained (s : State) : Prop :=
  ∃ c : Counters (2 ^ 10), Represents s.fifo c ∧ c.Near

section Lockstep

variable {rate : BitVec 16} {s : State} {t : Tick} {ts : List Tick}

theorem Lockstep.streaming (ht : Lockstep rate t) : Streaming rate t :=
  ⟨ht.core.streaming, ht.ctrlRst, ht.core.decimRate⟩

theorem Lockstep.fifo (ht : Lockstep rate t) (s : State) :
    AxisAsyncFifo.Lockstep (fifoTick s t) :=
  ⟨ht.adcClk, ht.axiClk, ⟨ht.core.streaming.1, ht.ctrlRst⟩, ht.mAxisIqTready⟩

theorem Lockstep.flowing (ht : Lockstep rate t) (hs : Drained s) :
    SdrPlCore.Flowing rate (coreInputs s t) := by
  obtain ⟨c, hrep, hnear⟩ := hs
  rw [coreInputs, AxisAsyncFifo.sTready_of_near (by decide) hrep hnear]
  exact ht.core

theorem Lockstep.core_eq (ht : Lockstep rate t) (s : State) :
    (step s t).core = SdrPlCore.step s.core (coreInputs s t) :=
  if_pos ht.adcClk

theorem Drained.step (hs : Drained s) (ht : Lockstep rate t) : Drained (IqLink.step s t) := by
  obtain ⟨c, hrep, hnear⟩ := hs
  obtain ⟨c', -, -, hrep', hnear'⟩ := AxisAsyncFifo.near_step (by decide) hrep hnear (ht.fifo s)
  exact ⟨c', hrep', hnear'⟩

/-- The core below the instants of a lockstep run, and the packets it closes. -/
theorem core_run (hs : Drained s) (hts : ∀ t ∈ ts, Lockstep rate t) :
    ∃ is : List SdrPlCore.Inputs, is.length = ts.length ∧
      (∀ i ∈ is, SdrPlCore.Flowing rate i) ∧
        emits step closed s ts = emits SdrPlCore.step SdrPlCore.closed s.core is := by
  induction ts generalizing s with
  | nil =>
      exact ⟨[], rfl, by simp, rfl⟩
  | cons t ts ih =>
      have ht := hts t (by simp)
      obtain ⟨is, hlen, his, hclosed⟩ := ih (hs.step ht) (fun t' ht' => hts t' (by simp [ht']))
      refine ⟨coreInputs s t :: is, by simp [hlen], ?_, ?_⟩
      · exact List.forall_mem_cons.2 ⟨ht.flowing hs, his⟩
      · rw [emits_cons, hclosed, ht.core_eq, emits_cons]
        rfl

theorem closed_often (hs : Drained s) (hfed : SdrPlCore.Fed rate s.core)
    (hts : ∀ t ∈ ts, Lockstep rate t) :
    ts.length / SdrPlCore.closeBound rate ≤ (emits step closed s ts).length := by
  obtain ⟨is, hlen, his, hclosed⟩ := core_run hs hts
  rw [← hlen, hclosed]
  exact SdrPlCore.closed_often hfed is his

/-! ### What is on the way -/

/-- At an instant the packetizer gets rid of what it held, and holds what it puts out; a word with
`tlast` is one that closes a packet. -/
theorem pending_step (ht : Lockstep rate t) (hs : Drained s) :
    accepted s t = pending s.core.iq ∧
      (pending (step s t).core.iq).countP (·.last) = (closed s t).length := by
  have hflows := ht.flowing hs
  constructor
  · rw [accepted, packetizerFed, if_pos ht.adcClk, List.flatMap_singleton, IqPacketizer.accepted,
      if_pos]
    exact hflows.sink
  · rw [ht.core_eq, closed, SdrPlCore.closed, pending]
    cases hvalid : (SdrPlCore.step s.core (coreInputs s t)).iq.mAxisTvalid <;>
      cases hlast : (SdrPlCore.step s.core (coreInputs s t)).iq.mAxisTlast <;> simp

/-- A run from an empty FIFO: the counters are those of the words, and the packets closed those of the
words that the packetizer got rid of or holds. -/
theorem lockstep_run {mem : BitVec 10 → BitVec 37} (hempty : s.fifo = AxisAsyncFifo.resetState mem)
    (hidle : pending s.core.iq = []) (hts : ∀ t ∈ ts, Lockstep rate t) :
    ∃ c : Counters (2 ^ 10), Represents (runFrom step s ts).fifo c ∧ c.Near ∧
      c.pushed = (emits step accepted s ts).length ∧
        c.popped = (emits step delivered s ts).length ∧
          (emits step closed s ts).length =
            (emits step accepted s ts ++ pending (runFrom step s ts).core.iq).countP (·.last) := by
  refine history_invariant (C := fun _ t => Lockstep rate t)
    (P := fun ts (s' : State) => ∃ c : Counters (2 ^ 10), Represents s'.fifo c ∧ c.Near ∧
      c.pushed = (emits step accepted s ts).length ∧
        c.popped = (emits step delivered s ts).length ∧
          (emits step closed s ts).length =
            (emits step accepted s ts ++ pending s'.core.iq).countP (·.last))
    ⟨Counters.zero _, ?_, Counters.near_zero _, rfl, rfl, by simp [hidle]⟩ ?_ ts
    (along_of_forall fun _ t ht => hts t ht)
  · rw [hempty]
    exact AxisAsyncFifo.represents_reset mem
  -- One instant: the packetizer's word goes into the FIFO, and a closed packet is what it holds next.
  · rintro ts t ⟨c, hrep, hnear, hpushed, hpopped, hclosed⟩ ht
    obtain ⟨c', hpushed', hpopped', hrep', hnear'⟩ :=
      AxisAsyncFifo.near_step (by decide) hrep hnear (ht.fifo _)
    obtain ⟨haccepted, hlast⟩ := pending_step ht ⟨c, hrep, hnear⟩
    have hwords := congrArg List.length (pushed_eq ht.streaming (runFrom step s ts))
    rw [List.length_map] at hwords
    refine ⟨c', hrep', hnear', ?_, ?_, ?_⟩
    · rw [hpushed', hpushed, hwords, emits_snoc, List.length_append]
      rfl
    · rw [hpopped', hpopped, emits_snoc, List.length_append, delivered, List.length_map]
    · rw [emits_snoc, emits_snoc, List.length_append, hclosed, haccepted,
        ← hlast, ← List.countP_append]

/-- Of the packets closed all but the last few are delivered. -/
theorem closed_le_groups {mem : BitVec 10 → BitVec 37}
    (hempty : s.fifo = AxisAsyncFifo.resetState mem) (hidle : pending s.core.iq = [])
    (hts : ∀ t ∈ ts, Lockstep rate t) :
    (emits step closed s ts).length ≤ (groups [] (emits step delivered s ts)).length + 5 := by
  obtain ⟨c, -, hnear, hpushed, hpopped, hclosed⟩ := lockstep_run hempty hidle hts
  have hprefix := delivered_isPrefix hempty (fun t ht => (hts t ht).streaming)
  rw [← emits_packetizer] at hprefix
  obtain ⟨rest, hrest⟩ := hprefix
  have hkept := hnear.kept
  -- Four words in the FIFO and one in the packetizer.
  have hpending : (pending (runFrom step s ts).core.iq).length ≤ 1 := by
    unfold pending
    split_ifs <;> simp
  have hlen : (emits step accepted s ts).length =
      (emits step delivered s ts).length + rest.length := by
    rw [← List.length_append, hrest]
    rfl
  have hcount : (emits step accepted s ts).countP (·.last) =
      (emits step delivered s ts).countP (·.last) + rest.countP (·.last) := by
    rw [← List.countP_append, hrest]
    rfl
  have hsome := List.countP_le_length (p := fun w : Word => w.last) (l := rest)
  have hlast := List.countP_le_length (p := fun w : Word => w.last)
    (l := pending (runFrom step s ts).core.iq)
  rw [hclosed, IqPacketizer.length_groups, List.countP_append, hcount]
  omega

end Lockstep

end IqLink
end Fpga
end Sdr
