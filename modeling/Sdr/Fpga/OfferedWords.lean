import Sdr.Fpga.DdcCore
import Sdr.Fpga.FifoLossless
import Sdr.Fpga.IqFraming

/-!
# OfferedWords — an offered word stays until it is taken

The rule of a stream with `valid` and `ready`: once `valid` is up, it stays up with the same word until
the cycle in which `ready` is up.  The down-converter and the packetizer keep it from any state, since
nothing but a taken word makes room in their output registers, not even a packet that is given up.  The
FIFO keeps it because the writer never reaches the slot under the read pointer.
-/

namespace Sdr
namespace Fpga

open Lib

universe u v w

section Stable

variable {σ : Type u} {ε : Type v} {α : Type w}

/-- What a stage offers in a state is offered as long as the cycles meet `C`. -/
def Stable (step : σ → ε → σ) (offered : σ → Option α) (C : ε → Prop) (s : σ) : Prop :=
  ∀ word es, offered s = some word → (∀ e ∈ es, C e) → offered (runFrom step s es) = some word

/-- It is enough that one cycle keeps an offer, in the states that the stage can be in. -/
theorem stable_of_step {step : σ → ε → σ} {offered : σ → Option α} {C : ε → Prop} {I : σ → Prop}
    (hI : ∀ s e, I s → C e → I (step s e))
    (hstep : ∀ s e word, I s → C e → offered s = some word → offered (step s e) = some word) {s : σ}
    (hs : I s) : Stable step offered C s := by
  intro word es hword hes
  have hrun : I (runFrom step s es) ∧ offered (runFrom step s es) = some word :=
    runFrom_invariant (I := fun s => I s ∧ offered s = some word) (C := fun _ e => C e)
      (fun s e h he => ⟨hI s e h.1 he, hstep s e word h.1 he h.2⟩) ⟨hs, hword⟩
      (along_of_forall (fun _ e he => hes e he))
  exact hrun.2

end Stable

/-! ## The down-converter -/

namespace DdcCore

/-- `m_axis_tdata` while `m_axis_tvalid`. -/
def offered (s : State) : Option (BitVec 32) :=
  if s.mAxisTvalid then some s.mAxisTdata else none

/-- Out of reset, and the word is not taken. -/
def Waits (i : Inputs) : Prop :=
  i.rst = false ∧ i.mAxisTready = false

theorem offered_step {s : State} {i : Inputs} {word : BitVec 32} (hi : Waits i)
    (h : offered s = some word) : offered (step s i) = some word := by
  have hvalid : s.mAxisTvalid = true := by
    by_contra hnot
    simp [offered, hnot] at h
  have hload : loadOutput s i = false := by simp [loadOutput, hvalid, hi.2]
  have hsame : offered (step s i) = offered s := by
    unfold step output
    rw [hi.1, hi.2, hload]
    -- A new sample is counted and dropped.
    cases s.gainSat.validOut <;> simp [offered, pipeline]
  rw [hsame, h]

end DdcCore

/-! ## The packetizer -/

namespace IqPacketizer

/-- `m_axis_tdata`, `m_axis_tkeep` and `m_axis_tlast` while `m_axis_tvalid`. -/
def offered (s : State) : Option Word :=
  (pending s).head?

def Waits (i : Inputs) : Prop :=
  i.rst = false ∧ i.mAxisTready = false

theorem offered_step (p : Params) {s : State} {i : Inputs} {word : Word} (hi : Waits i)
    (h : offered s = some word) : offered (step p s i) = some word := by
  have hvalid : s.mAxisTvalid = true := by
    by_contra hnot
    simp [offered, pending, hnot] at h
  have hdrain : drain s i = s := by simp [drain, hi.2]
  have hready : outReady s i = false := by simp [outReady, hvalid, hi.2]
  have hsame : offered (step p s i) = offered s := by
    unfold step
    rw [hi.1, hready, hdrain]
    -- A disabled or reconfigured packetizer forgets its packet but not the word on offer.
    cases i.enable <;> cases i.configChanged <;>
      simp [offered, pending, disable, reconfigure]
  rw [hsame, h]

end IqPacketizer

/-! ## The FIFO -/

namespace AxisAsyncFifo

variable {width addrWidth : Nat}

def offered (s : State width addrWidth) : Option (BitVec width) :=
  if mTvalid s then some (mTdata s) else none

/-- Out of reset, and no word is popped. -/
def Waits (t : Tick width addrWidth) : Prop :=
  NoReset t ∧ (t.mClk = true → t.mTready = false)

theorem offered_step (s : State width addrWidth) {c : Counters (2 ^ addrWidth)}
    (hc : Represents s c) {t : Tick width addrWidth} {word : BitVec width} (ht : Waits t)
    (h : offered s = some word) : offered (step s t) = some word := by
  have hempty : s.mEmpty = false := by
    by_contra hnot
    simp [offered, mTvalid, hnot] at h
  -- The word on offer has been pushed and seen by the reader.
  have hlt : c.popped < c.made3 := by
    have hne : c.popped ≠ c.made3 := by simpa [hc.mEmpty] using hempty
    exact Nat.lt_of_le_of_ne c.popped_le hne
  have hmade := c.made_chain
  have hpop : (t.mClk && mPop s t) = false := by
    cases hclk : t.mClk with
    | false => rfl
    | true => simp [mPop, ht.2 hclk]
  have hvalid : mTvalid (step s t) = true := by
    have hnext : mPop s t = false → emptyNext s t = false := by
      intro hnone
      rw [emptyNext_eq hc, hnone]
      simp only [Bool.toNat_false, Nat.add_zero, decide_eq_false_iff_not]
      omega
    cases hclk : t.mClk with
    | false => cases hsclk : t.sClk <;> simp [mTvalid, step, sEdge, hclk, hsclk, ht.1.1, hempty]
    | true =>
        have hnone : mPop s t = false := by simpa [hclk] using hpop
        simp [mTvalid, step, mEdge, hclk, ht.1.2, hnext hnone]
  have hdata : mTdata (step s t) = mTdata s := by
    have hbin : (step s t).mBin = s.mBin := by
      cases hclk : t.mClk with
      | false => cases hsclk : t.sClk <;> simp [step, sEdge, hclk, hsclk, ht.1.1]
      | true =>
          have hnone : mPop s t = false := by simpa [hclk] using hpop
          simp [step, mEdge, hclk, ht.1.2, mBinNext, hnone]
    have hslot : s.mBin.setWidth addrWidth = BitVec.ofNat addrWidth c.popped := by
      rw [hc.mBin, setWidth_ofNat_succ]
    rw [mTdata, mTdata, hbin, step_mem ht.1]
    cases hpush : (t.sClk && sPush s t) with
    | false => rfl
    | true =>
        -- The pushed word goes to another slot.
        have hne := slot_ne hc hpush (Nat.le_refl c.popped) (by omega)
        rw [if_pos rfl, hslot, Function.update_of_ne hne]
  have hword : mTdata s = word := by simpa [offered, mTvalid, hempty] using h
  rw [offered, hvalid, if_pos rfl, hdata, hword]

end AxisAsyncFifo

/-- No stage of the IQ path takes back or alters a word that it offers, whatever becomes of the stream
meanwhile. -/
theorem offers_stable (p : IqPacketizer.Params) {width addrWidth : Nat} (haddr : 2 ≤ addrWidth)
    (mem : BitVec addrWidth → BitVec width) (ts : List (AxisAsyncFifo.Tick width addrWidth))
    (hts : ∀ t ∈ ts, AxisAsyncFifo.NoReset t) :
    (∀ s, Stable DdcCore.step DdcCore.offered DdcCore.Waits s) ∧
      (∀ s, Stable (IqPacketizer.step p) IqPacketizer.offered IqPacketizer.Waits s) ∧
        Stable AxisAsyncFifo.step AxisAsyncFifo.offered AxisAsyncFifo.Waits
          (runFrom AxisAsyncFifo.step (AxisAsyncFifo.resetState mem) ts) := by
  refine ⟨?_, ?_, ?_⟩
  · intro s
    refine stable_of_step (I := fun _ => True) (fun _ _ _ _ => trivial) ?_ trivial
    intro s i word _ hi h
    exact DdcCore.offered_step hi h
  · intro s
    refine stable_of_step (I := fun _ => True) (fun _ _ _ _ => trivial) ?_ trivial
    intro s i word _ hi h
    exact IqPacketizer.offered_step p hi h
  · have hrun : ∃ c, AxisAsyncFifo.Represents
        (runFrom AxisAsyncFifo.step (AxisAsyncFifo.resetState mem) ts) c := by
      rcases AxisAsyncFifo.holds_run (by omega) mem ts hts with ⟨c, hc⟩
      exact ⟨c, hc.represents⟩
    refine stable_of_step (I := fun s => ∃ c, AxisAsyncFifo.Represents s c) ?_ ?_ hrun
    · rintro s t ⟨c, hc⟩ ht
      rcases AxisAsyncFifo.represents_step (by omega) hc ht.1 with ⟨c', _, _, hc'⟩
      exact ⟨c', hc'⟩
    · rintro s t word ⟨c, hc⟩ ht h
      exact AxisAsyncFifo.offered_step s hc ht h

/-- After three instants the FIFO offers the first word it was given. -/
theorem offers_stable_threeTicks :
    AxisAsyncFifo.offered (runFrom AxisAsyncFifo.step (AxisAsyncFifo.resetState fun _ => 0)
        (AxisAsyncFifo.sevenTicks.take 3)) = some 0x40 ∧
      (∀ s, Stable DdcCore.step DdcCore.offered DdcCore.Waits s) ∧
        (∀ s, Stable (IqPacketizer.step ⟨0, 256⟩) IqPacketizer.offered IqPacketizer.Waits s) ∧
          Stable AxisAsyncFifo.step AxisAsyncFifo.offered AxisAsyncFifo.Waits
            (runFrom AxisAsyncFifo.step (AxisAsyncFifo.resetState fun _ => 0)
              (AxisAsyncFifo.sevenTicks.take 3)) := by
  refine ⟨by decide, offers_stable ⟨0, 256⟩ (by decide) (fun _ => 0) _ ?_⟩
  intro t ht
  have hmem := List.mem_of_mem_take ht
  simp only [AxisAsyncFifo.sevenTicks, List.mem_map] at hmem
  rcases hmem with ⟨i, _, rfl⟩
  exact ⟨rfl, rfl⟩

end Fpga
end Sdr
