import Sdr.Fpga.SdrPlCore

/-!
# EventFlags — over-range and overflow events in the packet headers

`sdr_pl_core` collects events in two sticky flags and clears them in the cycle after a packet's last
word, which is the cycle in which the packetizer would latch them for the next header.  It latches them
only if the sink takes the last word at once.  If the sink stalls there, the flags are cleared and
nobody has seen them.

* `Reported f s is` — no event of the kind `f` goes unreported in the run `is` from `s`;
* `KeepsFlag f s i` — the edge does not clear a flag that has not been latched;
* `events_reported` — the second along a run gives the first.
-/

namespace Sdr
namespace Fpga

open Lib

/-! ## The packetizer's part -/

namespace IqPacketizer

variable {p : Params} {s : State} {i : Inputs}

/-- The packet counter moves only at the edge that goes back to idle. -/
theorem packetCount_or_idle (p : Params) (s : State) (i : Inputs) (hrst : i.rst = false) :
    (step p s i).packetCount = s.packetCount ∨ (step p s i).state = .idle := by
  have hdrain : (drain s i).packetCount = s.packetCount := by
    unfold drain
    split <;> rfl
  unfold step
  rw [hrst]
  simp only [Bool.false_eq_true, if_false]
  split_ifs
  · exact .inr rfl
  · exact .inr rfl
  · unfold advance
    split
    · exact .inl hdrain
    · exact .inl hdrain
    · split_ifs
      · unfold putPayload
        split_ifs
        · exact .inr rfl
        · exact .inl hdrain
      · exact .inl hdrain
    · exact .inr rfl
  · exact .inl hdrain

theorem started_ne_nil :
    started s i ≠ [] ↔ Streaming i ∧ outReady s i = true ∧ s.state = .idle := by
  unfold started
  split_ifs with h
  · simp [h]
  · simp [h]

theorem flagsLatched_of_started (h : started s i ≠ []) : (step p s i).flagsLatched = i.flags := by
  rcases started_ne_nil.1 h with ⟨⟨hrst, hen, hcfg⟩, hready, hidle⟩
  have hstate : (drain s i).state = .idle := by
    unfold drain
    split
    · exact hidle
    · exact hidle
  simp [step, hrst, hen, hcfg, hready, advance, hstate, startPacket]

end IqPacketizer

namespace SdrPlCore

/-! ## Events -/

/-- The packet flags that report events. -/
inductive Flag
  | adcOr
  | fifoOverflow
  deriving DecidableEq

namespace Flag

/-- The event in a cycle. -/
def event : Flag → State → Inputs → Bool
  | .adcOr, _, i => i.adcOr
  | .fifoOverflow, s, _ => overflowed s

def seen : Flag → State → Bool
  | .adcOr, s => s.adcOrSeen
  | .fifoOverflow, s => s.iqOverflowSeen

/-- The place of the flag in `packet_flags`. -/
def bit : Flag → Nat
  | .adcOr => 0
  | .fifoOverflow => 1

theorem getLsbD_packetFlags (f : Flag) (s : State) : (packetFlags s).getLsbD f.bit = f.seen s := by
  cases f with
  | adcOr => cases h : s.adcOrSeen <;> cases h' : s.iqOverflowSeen <;> simp [packetFlags, bit, seen, h, h']
  | fifoOverflow =>
      cases h : s.adcOrSeen <;> cases h' : s.iqOverflowSeen <;> simp [packetFlags, bit, seen, h, h']

theorem seen_step (f : Flag) (s : State) {i : Inputs} (hrst : i.rst = false) :
    f.seen (step s i) = sticky (f.seen s) (f.event s i) (packetClosed s) := by
  cases f with
  | adcOr => simp [seen, event, step, hrst]
  | fifoOverflow => simp [seen, event, step, hrst]

end Flag

/-- The packetizer latches the flags of the next header at the edge. -/
def LatchesFlags (s : State) (i : Inputs) : Prop :=
  IqPacketizer.started s.iq (packetizerInputs s i) ≠ []

instance (s : State) (i : Inputs) : Decidable (LatchesFlags s i) :=
  inferInstanceAs (Decidable (¬ _ = _))

section Reported

variable (s : State) (is : List Inputs)

/-- In cycle `c` of the run there is an event. -/
def EventAt (f : Flag) (c : Nat) : Prop :=
  ∃ i, is[c]? = some i ∧ f.event (stateAt step s is c) i = true

/-- In cycle `l` of the run the flags of a header are latched. -/
def LatchAt (l : Nat) : Prop :=
  ∃ i, is[l]? = some i ∧ LatchesFlags (stateAt step s is l) i

/-- The first header whose flags are latched in a cycle later than an event has its flag set. -/
def Reported (f : Flag) : Prop :=
  ∀ c l, c < l → EventAt s is f c → LatchAt s is l → (∀ k, c < k → k < l → ¬ LatchAt s is k) →
    (stateAt step s is (l + 1)).iq.flagsLatched.getLsbD f.bit = true

end Reported

/-! ## The condition -/

/-- In the cycle after a packet's last word the sink takes that word, or the flag is clear, or the event
is there in that very cycle. -/
def KeepsFlag (f : Flag) (s : State) (i : Inputs) : Prop :=
  packetClosed s = true → i.mAxisIqTready = false → f.seen s = true → f.event s i = true

instance (f : Flag) (s : State) (i : Inputs) : Decidable (KeepsFlag f s i) :=
  inferInstanceAs (Decidable (_ → _ → _ → _))

/-- In the cycle after a packet's last word the packetizer is idle. -/
theorem idle_of_packetClosed (is : List Inputs) :
    packetClosed (run is) = true → (run is).iq.state = .idle := by
  refine runFrom_inductive (I := fun s => packetClosed s = true → s.iq.state = .idle) ?_
    (fun _ => rfl) is
  intro s i _ hclosed
  cases hrst : i.rst with
  | true => simp [step, IqPacketizer.step, packetizerInputs, hrst, IqPacketizer.resetState]
  | false =>
      rcases IqPacketizer.packetCount_or_idle packetizerParams s.iq (packetizerInputs s i) hrst with
        hcount | hidle
      · simp [packetClosed, step, hrst, hcount] at hclosed
      · exact hidle

/-- An idle packetizer that does not latch is held up by the sink. -/
theorem not_ready_of_not_latches {s : State} {i : Inputs} (hi : Streaming i)
    (hidle : s.iq.state = .idle) (h : ¬ LatchesFlags s i) : i.mAxisIqTready = false := by
  have hstream : IqPacketizer.Streaming (packetizerInputs s i) := hi
  cases hready : i.mAxisIqTready with
  | false => rfl
  | true =>
      have hout : IqPacketizer.outReady s.iq (packetizerInputs s i) = true := by
        simp [IqPacketizer.outReady, packetizerInputs, hready]
      exact absurd (IqPacketizer.started_ne_nil.2 ⟨hstream, hout, hidle⟩) h

/-! ## Steps and runs -/

/-- A flag stays set over a cycle in which it is not latched. -/
theorem seen_of_keepsFlag {f : Flag} {s : State} {i : Inputs} (hi : Streaming i)
    (hidle : packetClosed s = true → s.iq.state = .idle) (hkeeps : KeepsFlag f s i)
    (hlatch : ¬ LatchesFlags s i) (hseen : f.seen s = true) : f.seen (step s i) = true := by
  rw [f.seen_step s hi.1]
  cases hclosed : packetClosed s with
  | false => simp [sticky, hseen]
  | true =>
      have hready := not_ready_of_not_latches hi (hidle hclosed) hlatch
      simp [sticky, hkeeps hclosed hready hseen]

/-- Every event is reported in the next header, if the sink takes every packet's last word at once
whenever there is something to report. -/
theorem events_reported (before is : List Inputs) (hstream : ∀ i ∈ is, Streaming i)
    (hkeeps : ∀ f, Along step (KeepsFlag f) (run before) is) :
    ∀ f, Reported (run before) is f := by
  intro f c l hcl hevent hlatch hnone
  rcases hevent with ⟨i, hi, hevent⟩
  rcases hlatch with ⟨j, hj, hlatch⟩
  -- The flag is set by the event and is still set when it is latched.
  have hseen : ∀ n, c < n → n ≤ l → f.seen (stateAt step (run before) is n) = true := by
    intro n hcn
    induction n, hcn using Nat.le_induction with
    | base =>
        intro _
        rw [stateAt_succ hi, f.seen_step _ (hstream i (List.mem_of_getElem? hi)).1, hevent]
        simp [sticky]
    | succ n hcn ih =>
        intro hnl
        have hlen : n < is.length := by
          have hl := (List.getElem?_eq_some_iff.1 hj).1
          omega
        have hn : is[n]? = some is[n] := List.getElem?_eq_getElem hlen
        rw [stateAt_succ hn]
        refine seen_of_keepsFlag (hstream _ (List.getElem_mem hlen)) ?_ ((hkeeps f).at hn) ?_
          (ih (by omega))
        · have hrun : stateAt step (run before) is n = run (before ++ is.take n) :=
            (runFrom_append step resetState before (is.take n)).symm
          rw [hrun]
          exact idle_of_packetClosed _
        · intro hlatches
          exact hnone n hcn (by omega) ⟨_, hn, hlatches⟩
  have hflags : (stateAt step (run before) is (l + 1)).iq.flagsLatched =
      packetFlags (stateAt step (run before) is l) := by
    rw [stateAt_succ hj]
    exact IqPacketizer.flagsLatched_of_started hlatch
  rw [hflags, f.getLsbD_packetFlags]
  exact hseen l hcl (Nat.le_refl l)

/-! ### One over-range sample -/

/-- One edge of an undisturbed stream. -/
def streamingInputs : Inputs where
  rst := false
  coreEnable := true
  clearStatusCounts := false
  adcOffsetBinary := false
  adcCh0Sample14 := 100
  adcCh1Sample14 := 0
  adcSampleValid := true
  adcOr := false
  adcLocked := true
  ddc0Enable := true
  ddc0AdcChannel := false
  ddc0ConfigChanged := false
  ddc0FreqWord := 12345678
  ddc0DecimRate := 1
  ddc0GainShift := 0
  ddc0FrequencyHz := 98500000
  ddc0IqSampleRateHz := 250000
  ddc0BandwidthHz := 12000
  ddc0GainDbQ8 := 0
  mAxisIqTready := true

/-- The first packet closes after 279 edges.  The ADC is over range in cycle 100, and in the cycle after
the last word the sink is ready or not. -/
def overRange (ready : Bool) : List Inputs :=
  List.replicate 100 streamingInputs ++ { streamingInputs with adcOr := true } ::
    List.replicate 178 streamingInputs ++
      [{ streamingInputs with mAxisIqTready := ready }, streamingInputs]

theorem events_reported_overRange :
    (stateAt step resetState (overRange true) 280).iq.flagsLatched.getLsbD 0 = true ∧
      ∀ f, Reported (run []) (overRange true) f := by
  refine ⟨by decide +kernel, events_reported [] (overRange true) (by decide +kernel) ?_⟩
  intro f
  cases f with
  | adcOr => decide +kernel
  | fifoOverflow => decide +kernel

/-- The cycles of a run in which the flags of a header are latched. -/
def latchCycles (s : State) (is : List Inputs) : List Bool :=
  emits step (fun s i => [decide (LatchesFlags s i)]) s is

theorem latchAt_iff {s : State} {is : List Inputs} {l : Nat} :
    LatchAt s is l ↔ (latchCycles s is)[l]? = some true := by
  rw [latchCycles, getElem?_emits_one, Option.map_eq_some_iff]
  simp only [LatchAt, decide_eq_true_eq]

/-- With the sink stalled in that one cycle, the next header says nothing of the over-range. -/
theorem not_events_reported_overRange :
    ¬ ∀ (c : Inputs) (is : List Inputs), (∀ i ∈ is, Streaming i ∧ SameConfig c i) →
      ∀ f, Reported resetState is f := by
  intro h
  have hlatches : latchCycles resetState (overRange false) =
      true :: List.replicate 279 false ++ [true] := by decide +kernel
  have hevent : EventAt resetState (overRange false) .adcOr 100 := ⟨_, rfl, rfl⟩
  have hlatch : LatchAt resetState (overRange false) 280 := by
    rw [latchAt_iff, hlatches]
    rfl
  have hnone : ∀ k, 100 < k → k < 280 → ¬ LatchAt resetState (overRange false) k := by
    intro k hk hk'
    cases k with
    | zero => omega
    | succ k =>
        rw [latchAt_iff, hlatches, List.cons_append, List.getElem?_cons_succ,
          List.getElem?_append_left (by rw [List.length_replicate]; omega), List.getElem?_replicate,
          if_pos (by omega)]
        decide
  have hflag := h streamingInputs (overRange false) (by decide +kernel) .adcOr 100 280 (by omega)
    hevent hlatch hnone
  have hclear : (stateAt step resetState (overRange false) 281).iq.flagsLatched.getLsbD 0 = false := by
    decide +kernel
  exact absurd (hflag.symm.trans hclear) (by decide)

end SdrPlCore
end Fpga
end Sdr
