import Mathlib.Data.BitVec
import Sdr.Lib.FixedPoint
import Sdr.Lib.Machine
import Sdr.Fpga.DdcCore

/-!
# DdcOutput — from the filters to the output word

Behind the filters the converter scales each I/Q pair down, clamps it to sixteen bits and offers it in
a register of one word.  A pair that finds the register occupied is counted and dropped, so the words
that get through are some of the pairs, in order, and the two counters account for every one of them
(`output_conserves`).
-/

namespace Sdr
namespace Fpga

/-! ## `iq_gain_sat` -/

namespace IqGainSat

open Lib

/-- Division by a power of two rounds down. -/
def gained (value : BitVec 56) (shift : BitVec 6) : Int :=
  value.toInt / 2 ^ shift.toNat

theorem max_slt (shifted : BitVec 56) : MAX_OUT_EXT.slt shifted = decide (32767 < shifted.toInt) :=
  BitVec.slt_eq_decide

theorem slt_min (shifted : BitVec 56) :
    shifted.slt MIN_OUT_EXT = decide (shifted.toInt < -32768) :=
  BitVec.slt_eq_decide

theorem toInt_shiftSat (value : BitVec 56) (shift : BitVec 6) :
    (shiftSat value shift).toInt = clamp16 (gained value shift) := by
  have hshifted : (value.sshiftRight shift.toNat).toInt = gained value shift :=
    toInt_sshiftRight_eq_ediv value shift.toNat
  simp only [shiftSat, max_slt, slt_min, hshifted, decide_eq_true_eq]
  exact toInt_saturate (by decide) hshifted

theorem isClipped_eq (value : BitVec 56) (shift : BitVec 6) :
    isClipped value shift = decide (clamp16 (gained value shift) ≠ gained value shift) := by
  have hshifted : (value.sshiftRight shift.toNat).toInt = gained value shift :=
    toInt_sshiftRight_eq_ediv value shift.toNat
  simp only [isClipped, max_slt, slt_min, hshifted, ← Bool.decide_or]
  exact decide_eq_decide.2 (clamp16_ne_iff _).symm

end IqGainSat

/-! ## `ddc_core` -/

namespace DdcCore

open Lib IqGainSat

/-- The pair in the output registers of the filters. -/
def cicPair (s : State) : List (BitVec 56 × BitVec 56) :=
  if s.cicI.validOut && s.cicQ.validOut then [(s.cicI.sampleOut, s.cicQ.sampleOut)] else []

/-- The pair in the output registers of the gain stage, with `iq_clip`. -/
def satPair (s : State) : List (BitVec 16 × BitVec 16 × Bool) :=
  if s.gainSat.validOut then [(s.gainSat.iOut, s.gainSat.qOut, iqClip s)] else []

/-- The word in the output register. -/
def waiting (s : State) : List (BitVec 32) :=
  if s.mAxisTvalid then [s.mAxisTdata] else []

def transferred (s : State) (i : Inputs) : List (BitVec 32) :=
  if i.mAxisTready then waiting s else []

/-- What the gain stage makes of a pair, as integers. -/
def saturated (gainShift : BitVec 6) (pair : BitVec 56 × BitVec 56) : Int × Int × Bool :=
  (clamp16 (gained pair.1 gainShift), clamp16 (gained pair.2 gainShift),
    decide (clamp16 (gained pair.1 gainShift) ≠ gained pair.1 gainShift ∨
      clamp16 (gained pair.2 gainShift) ≠ gained pair.2 gainShift))

def asInts (pair : BitVec 16 × BitVec 16 × Bool) : Int × Int × Bool :=
  (pair.1.toInt, pair.2.1.toInt, pair.2.2)

/-- Q in the high half, I in the low half. -/
def wordOf (pair : BitVec 16 × BitVec 16 × Bool) : BitVec 32 :=
  pair.2.1 ++ pair.1

/-- The cycles of a run out of reset with one gain. -/
def Steady (gainShift : BitVec 6) (_ : State) (i : Inputs) : Prop :=
  i.rst = false ∧ i.gainShift = gainShift

section Step

variable {s : State} {i : Inputs} {gainShift : BitVec 6}

theorem satPair_step (h : Steady gainShift s i) :
    (satPair (step s i)).map asInts = (cicPair s).map (saturated gainShift) := by
  have hsat : (step s i).gainSat = IqGainSat.step s.gainSat false s.cicI.sampleOut s.cicQ.sampleOut
      (s.cicI.validOut && s.cicQ.validOut) gainShift := by
    rw [congrArg State.gainSat (step_frame s i)]
    simp [pipeline, h.1, h.2]
  -- The gain stage registers what it clamps, so the pair comes out one cycle later.
  cases hvalid : s.cicI.validOut && s.cicQ.validOut with
  | false =>
      rw [hvalid] at hsat
      simp [satPair, cicPair, hsat, hvalid, IqGainSat.step]
  | true =>
      rw [hvalid] at hsat
      simp [satPair, cicPair, hsat, hvalid, IqGainSat.step, iqClip, asInts, saturated,
        toInt_shiftSat, isClipped_eq]

/-- The word that the output register takes in. -/
def loaded (s : State) (i : Inputs) : List (BitVec 32) :=
  if loadOutput s i then (satPair s).map wordOf else []

theorem transferred_step (hrst : i.rst = false) :
    transferred s i ++ waiting (step s i) = waiting s ++ loaded s i := by
  unfold step output
  rw [hrst]
  -- The register is emptied, refilled, both in one cycle, or neither.
  cases hv : s.mAxisTvalid <;> cases hr : i.mAxisTready <;> cases hs : s.gainSat.validOut <;>
    simp [transferred, waiting, loaded, loadOutput, satPair, wordOf, packed, pipeline, hv, hr, hs]

theorem sampleCount_step (hrst : i.rst = false) :
    (step s i).sampleCount = s.sampleCount + BitVec.ofNat 32 (loaded s i).length := by
  unfold step output
  rw [hrst]
  cases hl : loadOutput s i <;> cases hs : s.gainSat.validOut <;>
    cases hv : s.mAxisTvalid && i.mAxisTready <;> simp [loaded, satPair, pipeline, hl, hs]

/-- Every pair is counted once, as a sample or as an overflow. -/
theorem counts_step (hrst : i.rst = false) :
    (step s i).sampleCount + (step s i).overflowCount =
      s.sampleCount + s.overflowCount + BitVec.ofNat 32 (satPair s).length := by
  unfold step output
  rw [hrst]
  cases hl : loadOutput s i <;> cases hs : s.gainSat.validOut <;>
    cases hv : s.mAxisTvalid && i.mAxisTready <;>
      simp [satPair, pipeline, hs, BitVec.add_assoc, BitVec.add_comm 1#32]

end Step

/-! ## Runs -/

/-- What an output stage accounts for after the cycles `is` out of reset. -/
structure Conserves (gainShift : BitVec 6) (is : List Inputs) : Prop where
  /-- Every pair that left the filters has been clamped, the last one perhaps still in the stage. -/
  pairs : (emits step (fun s _ => satPair s) resetState is ++
      satPair (runFrom step resetState is)).map asInts =
    (emits step (fun s _ => cicPair s) resetState is).map (saturated gainShift)
  together : (runFrom step resetState is).cicI.validOut = (runFrom step resetState is).cicQ.validOut
  clip : iqClip (runFrom step resetState is) = true →
    (runFrom step resetState is).gainSat.validOut = true
  words : (emits step transferred resetState is).Sublist
    ((emits step (fun s _ => satPair s) resetState is).map wordOf)
  waiting_le : (waiting (runFrom step resetState is)).length ≤ 1
  overflowCount : BitVec.ofNat 32 (emits step (fun s _ => satPair s) resetState is).length =
    BitVec.ofNat 32 ((emits step transferred resetState is).length +
      (waiting (runFrom step resetState is)).length) +
        (runFrom step resetState is).overflowCount
  sampleCount : (runFrom step resetState is).sampleCount =
    BitVec.ofNat 32 ((emits step transferred resetState is).length +
      (waiting (runFrom step resetState is)).length)

theorem emits_pairs {gainShift : BitVec 6} {s : State} {is : List Inputs}
    (h : Along step (Steady gainShift) s is) :
    (emits step (fun s _ => satPair s) s is ++ satPair (runFrom step s is)).map asInts =
      (satPair s).map asInts ++
        (emits step (fun s _ => cicPair s) s is).map (saturated gainShift) := by
  have hconserve : emits step (fun s _ => (satPair s).map asInts) s is ++
      (satPair (runFrom step s is)).map asInts =
        (satPair s).map asInts ++
          emits step (fun s _ => (cicPair s).map (saturated gainShift)) s is :=
    @emits_conserve _ _ _ step (Steady gainShift) _ _ (fun s => (satPair s).map asInts)
      (fun s i hi => by rw [satPair_step hi]) s is h
  rw [List.map_append, ← emits_map, ← emits_map]
  exact hconserve

/-- The two filters are fed and reset together. -/
structure Together (s : State) : Prop where
  decimCount : s.cicI.decimCount = s.cicQ.decimCount
  validOut : s.cicI.validOut = s.cicQ.validOut

theorem Together.step {s : State} (h : Together s) {i : Inputs} (hrst : i.rst = false) :
    Together (DdcCore.step s i) := by
  have hfire : ∀ validIn, CicDecimator.decimFire s.cicI validIn i.decimRate =
      CicDecimator.decimFire s.cicQ validIn i.decimRate := by
    intro validIn
    rw [CicDecimator.decimFire, CicDecimator.decimFire, h.decimCount]
  have hframe := step_frame s i
  constructor
  · rw [congrArg State.cicI hframe, congrArg State.cicQ hframe]
    cases hv : s.mixer.validOut <;>
      cases hf : CicDecimator.decimFire s.cicQ true i.decimRate <;>
        simp [pipeline, CicDecimator.step, hrst, hv, hfire, hf, h.decimCount]
  · rw [congrArg State.cicI hframe, congrArg State.cicQ hframe]
    cases hv : s.mixer.validOut <;>
      cases hf : CicDecimator.decimFire s.cicQ true i.decimRate <;>
        simp [pipeline, CicDecimator.step, hrst, hv, hfire, hf]

theorem iqClip_step {s : State} {i : Inputs} (hrst : i.rst = false)
    (h : iqClip (step s i) = true) : (step s i).gainSat.validOut = true := by
  have hframe := congrArg State.gainSat (step_frame s i)
  rw [iqClip, hframe] at h
  rw [hframe]
  cases hv : s.cicI.validOut && s.cicQ.validOut with
  | false =>
      simp [pipeline, IqGainSat.step, hrst, hv] at h
  | true =>
      simp [pipeline, IqGainSat.step, hrst, hv]

/-- In every run out of reset with one gain the output stage conserves and clamps the pairs. -/
theorem output_conserves {gainShift : BitVec 6} {is : List Inputs}
    (his : ∀ i ∈ is, i.rst = false ∧ i.gainShift = gainShift) : Conserves gainShift is := by
  have halong : Along step (Steady gainShift) resetState is := along_of_forall (fun _ => his)
  have hwords : emits step transferred resetState is ++ waiting (runFrom step resetState is) =
      emits step loaded resetState is :=
    @emits_conserve _ _ _ step (Steady gainShift) _ _ waiting
      (fun s i hi => transferred_step hi.1) resetState is halong
  have hlen : (emits step transferred resetState is).length +
      (waiting (runFrom step resetState is)).length =
        (emits step loaded resetState is).length := by
    rw [← hwords, List.length_append]
  -- The two counters from their steps, by one rule.
  have hsample : (runFrom step resetState is).sampleCount =
      0 + BitVec.ofNat 32 (emits step loaded resetState is).length :=
    runFrom_count (fun s i hi => sampleCount_step hi.1) halong
  have hcounts : (runFrom step resetState is).sampleCount +
      (runFrom step resetState is).overflowCount =
        0 + BitVec.ofNat 32 (emits step (fun s _ => satPair s) resetState is).length :=
    @runFrom_count _ _ _ step (Steady gainShift) 32 (fun s => s.sampleCount + s.overflowCount) _
      (fun s i hi => counts_step hi.1) resetState is halong
  refine ⟨emits_pairs halong, ?_, ?_, ?_, ?_, ?_, ?_⟩
  · have htogether : Together (runFrom step resetState is) :=
      runFrom_invariant (fun s i h hi => h.step hi.1) ⟨rfl, rfl⟩ halong
    exact htogether.validOut
  · exact runFrom_invariant (I := fun s => iqClip s = true → s.gainSat.validOut = true)
      (fun s i _ hi => iqClip_step hi.1) (by decide) halong
  · calc
      (emits step transferred resetState is).Sublist (emits step loaded resetState is) := by
        rw [← hwords]
        exact List.sublist_append_left _ _
      (emits step loaded resetState is).Sublist
          (emits step (fun s _ => (satPair s).map wordOf) resetState is) :=
        emits_sublist (fun s i => by unfold loaded; split_ifs <;> simp) resetState is
      _ = (emits step (fun s _ => satPair s) resetState is).map wordOf :=
        emits_map wordOf resetState is
  · unfold waiting
    split_ifs <;> simp
  · rw [hlen]
    simpa [hsample] using hcounts.symm
  · simpa [hlen] using hsample

/-- Full scale at rate 2 into an output that is never ready. -/
def stalledCycle : Inputs where
  rst := false
  enable := true
  sampleIn := 0x7fff
  sampleValid := true
  freqWord := 0
  decimRate := 2
  gainShift := 0
  mAxisTready := false

theorem output_conserves_stalledCycle :
    Conserves 0 (List.replicate 34 stalledCycle) ∧
      (runFrom step resetState (List.replicate 34 stalledCycle)).overflowCount = 5 ∧
        (runFrom step resetState (List.replicate 34 stalledCycle)).sampleCount = 1 := by
  refine ⟨output_conserves ?_, by decide +kernel, by decide +kernel⟩
  intro i hi
  rw [List.eq_of_mem_replicate hi]
  exact ⟨rfl, rfl⟩

end DdcCore

end Fpga
end Sdr
