import Mathlib.Algebra.Order.Ring.Abs
import Mathlib.Algebra.Order.Ring.Int
import Sdr.Lib.FixedPoint
import Sdr.Lib.Pipeline
import Sdr.Fpga.DdcCore

/-!
# Mixing — what the mixer is given and what it makes of it

The mixer scales its products by a shift of a concatenation, which is unsigned: a product below zero
comes out too large by `2 ^ 17`, every other one as intended (`mixer_exact_iff`).

Its two operands come through pipelines of their own.  The oscillator answers a sample eighteen cycles
later, the delay line beside it is sixteen long, so each phase meets the sample of two cycles after its
own (`presented_iff`).
-/

namespace Sdr
namespace Fpga

/-! ## `mixer_real_to_iq` -/

namespace MixerRealToIq

open Lib

theorem toInt_bounds (a : BitVec 16) : -2 ^ 15 ≤ a.toInt ∧ a.toInt < 2 ^ 15 :=
  ⟨BitVec.le_toInt a, BitVec.toInt_lt⟩

theorem abs_product_le (a b : BitVec 16) : |a.toInt * b.toInt| ≤ 2 ^ 30 := by
  obtain ⟨halo, hahi⟩ := toInt_bounds a
  obtain ⟨hblo, hbhi⟩ := toInt_bounds b
  rw [abs_mul]
  calc
    |a.toInt| * |b.toInt| ≤ 2 ^ 15 * 2 ^ 15 :=
      mul_le_mul (abs_le.2 ⟨halo, le_of_lt hahi⟩) (abs_le.2 ⟨hblo, le_of_lt hbhi⟩) (abs_nonneg _)
        (by decide)
    _ = 2 ^ 30 := by decide

theorem toInt_prod (a b : BitVec 16) : (prod a b).toInt = a.toInt * b.toInt := by
  obtain ⟨hlo, hhi⟩ := abs_le.1 (abs_product_le a b)
  exact toInt_mul_of_fits (BitVec.toInt_signExtend_of_le (by decide))
    (BitVec.toInt_signExtend_of_le (by decide)) ⟨by omega, by omega⟩

/-- The shift of a product, read as a number: a negative one keeps the weight of its sign bit. -/
theorem toNat_prod_shift (a b : BitVec 16) :
    ((prod a b >>> 15).toNat : Int) =
      a.toInt * b.toInt / 2 ^ 15 + if a.toInt * b.toInt < 0 then 2 ^ 17 else 0 := by
  have htoInt := toInt_prod a b
  have hlt := (prod a b).isLt
  have hdiv : ((prod a b >>> 15).toNat : Int) = ((prod a b).toNat : Int) / 2 ^ 15 := by
    rw [BitVec.toNat_ushiftRight, Nat.shiftRight_eq_div_pow]
    exact Int.natCast_ediv _ _
  rw [hdiv, ← htoInt, BitVec.toInt_eq_toNat_cond]
  split_ifs <;> omega

theorem toInt_prod_shift (a b : BitVec 16) :
    (prod a b >>> 15).toInt = ((prod a b >>> 15).toNat : Int) := by
  rw [BitVec.toInt_eq_toNat_cond, if_pos]
  rw [BitVec.toNat_ushiftRight, Nat.shiftRight_eq_div_pow]
  have hlt := (prod a b).isLt
  omega

theorem toInt_neg_prod_shift (a b : BitVec 16) :
    (-(prod a b >>> 15)).toInt = -((prod a b >>> 15).toNat : Int) := by
  have hsmall : (prod a b >>> 15).toNat < 2 ^ 17 := by
    rw [BitVec.toNat_ushiftRight, Nat.shiftRight_eq_div_pow]
    have hlt := (prod a b).isLt
    omega
  exact toInt_neg_of_fits (toInt_prod_shift a b) ⟨by omega, by omega⟩

/-- The scaled products of signed numbers; division by a power of two rounds down. -/
structure Exact (t : State) (sampleIn cosIn sinIn : BitVec 16) : Prop where
  iOut : t.iOut.toInt = sampleIn.toInt * cosIn.toInt / 2 ^ 15
  qOut : t.qOut.toInt = -(sampleIn.toInt * sinIn.toInt / 2 ^ 15)
  iOut_le : |t.iOut.toInt| ≤ 2 ^ 15
  qOut_le : |t.qOut.toInt| ≤ 2 ^ 15

/-- A valid edge registers the scaled products exactly when neither product is negative. -/
theorem mixer_exact_iff (s : State) (sampleIn cosIn sinIn : BitVec 16) :
    Exact (step s false sampleIn cosIn sinIn true) sampleIn cosIn sinIn ↔
      0 ≤ sampleIn.toInt * cosIn.toInt ∧ 0 ≤ sampleIn.toInt * sinIn.toInt := by
  have hi : (step s false sampleIn cosIn sinIn true).iOut.toInt =
      sampleIn.toInt * cosIn.toInt / 2 ^ 15 +
        if sampleIn.toInt * cosIn.toInt < 0 then 2 ^ 17 else 0 := by
    rw [← toNat_prod_shift, ← toInt_prod_shift]
    rfl
  have hq : (step s false sampleIn cosIn sinIn true).qOut.toInt =
      -(sampleIn.toInt * sinIn.toInt / 2 ^ 15 +
        if sampleIn.toInt * sinIn.toInt < 0 then 2 ^ 17 else 0) := by
    rw [← toNat_prod_shift, ← toInt_neg_prod_shift]
    rfl
  obtain ⟨-, hcos⟩ := abs_le.1 (abs_product_le sampleIn cosIn)
  obtain ⟨-, hsin⟩ := abs_le.1 (abs_product_le sampleIn sinIn)
  constructor
  · intro h
    have hi' := h.iOut
    have hq' := h.qOut
    rw [hi] at hi'
    rw [hq] at hq'
    constructor
    · by_contra hneg
      rw [if_pos (by omega)] at hi'
      omega
    · by_contra hneg
      rw [if_pos (by omega)] at hq'
      omega
  · rintro ⟨hposi, hposq⟩
    rw [if_neg (by omega), add_zero] at hi hq
    refine ⟨hi, hq, ?_, ?_⟩
    · rw [hi]
      exact abs_le.2 ⟨by omega, by omega⟩
    · rw [hq]
      exact abs_le.2 ⟨by omega, by omega⟩

/-- The product `-1` comes out as `2 ^ 17 - 1`. -/
theorem not_exact_minus_one : ¬Exact (step resetState false (-1) 1 0 true) (-1) 1 0 := by
  intro h
  exact absurd h.iOut (by decide)

end MixerRealToIq

/-! ## The stages of `cordic_sincos` -/

namespace CordicSincos

open Lib

/-- `cos_out` and `sin_out` for a phase, from its way through the stages. -/
def sincos (phase : BitVec 32) : BitVec 16 × BitVec 16 :=
  (satAmp (mapped (through rotate 16 (enter true phase))).1,
    satAmp (mapped (through rotate 16 (enter true phase))).2)

@[simp] theorem rotate_valid (i : Nat) (g : Stage) : (rotate i g).valid = g.valid := by
  cases h : g.z.msb <;> simp [rotate, h]

@[simp] theorem through_rotate_valid (j : Nat) (g : Stage) :
    (through rotate j g).valid = g.valid := by
  induction j with
  | zero =>
      rfl
  | succ j ih =>
      simpa [through] using ih

/-- What the stages and the output registers hold, with the stage-0 entries so far, newest first. -/
structure Answers (entries : List Stage) (s : State) : Prop where
  pipe : Piped rotate 16 (fun g => g.valid = false) entries s.pipe
  answer : ∀ g, entries[17]? = some g →
    s.validOut = g.valid ∧ s.cosOut = satAmp (mapped (through rotate 16 g)).1 ∧
      s.sinOut = satAmp (mapped (through rotate 16 g)).2
  silent : entries[17]? = none → s.validOut = false

theorem answers_resetState : Answers [] resetState where
  pipe := piped_replicate rfl
  answer := by simp
  silent := fun _ => rfl

theorem Answers.step {entries : List Stage} {s : State} (h : Answers entries s) (validIn : Bool)
    (phase : BitVec 32) :
    Answers (enter validIn phase :: entries) (CordicSincos.step s false validIn phase) := by
  have hlast : s.pipe[16]? = some (lastStage s) := by
    have hlt : 16 < s.pipe.length := by
      rw [h.pipe.length]
      decide
    simp [lastStage, hlt]
  refine ⟨h.pipe.advancePipe (fun j g hg => by simpa using hg) _, ?_, ?_⟩
  · intro g hg
    have hstage : lastStage s = through rotate 16 g :=
      h.pipe.entry 16 (lastStage s) g hlast (by simpa using hg)
    simp [CordicSincos.step, hstage]
  · intro hnone
    exact h.pipe.leftover 16 (lastStage s) hlast (by simpa using hnone)

end CordicSincos

/-! ## The operands of the mixer in `ddc_core` -/

namespace DdcCore

open Lib CordicSincos

/-- The cycle's sample goes to the oscillator. -/
def accepted (i : Inputs) : Bool :=
  Nco.advance i.enable i.sampleValid

/-- The operands of the mixer when it is given `valid_in`. -/
def presented (s : State) (_ : Inputs) : List (BitVec 16 × BitVec 16 × BitVec 16) :=
  if s.nco.cordic.validOut then
    [(s.sampleDelay.getLastD 0, s.nco.cordic.cosOut, s.nco.cordic.sinOut)]
  else
    []

def presentedPairs (is : List Inputs) : List (BitVec 16 × BitVec 16 × BitVec 16) :=
  emits step presented resetState is

/-- Every accepted sample with the oscillator at its own phase. -/
def ownPairs (freqWord : BitVec 32) (is : List Inputs) :
    List (BitVec 16 × BitVec 16 × BitVec 16) :=
  (is.filter accepted).mapIdx (fun n i => (i.sampleIn, sincos (BitVec.ofNat 32 n * freqWord)))

/-- What enters the oscillator in each cycle, newest first. -/
def entries (freqWord : BitVec 32) : List Inputs → List Stage
  | [] => []
  | i :: is =>
    enter (accepted i) (BitVec.ofNat 32 (is.countP accepted) * freqWord) :: entries freqWord is

theorem getElem?_entries (freqWord : BitVec 32) (is : List Inputs) (j : Nat) :
    (entries freqWord is)[j]? = is[j]?.map (fun i =>
      enter (accepted i)
        (BitVec.ofNat 32 ((is.drop (j + 1)).countP accepted) * freqWord)) := by
  induction is generalizing j with
  | nil =>
      rfl
  | cons i is ih =>
      cases j with
      | zero =>
          rfl
      | succ j =>
          simpa [entries] using ih j

structure Operands (freqWord : BitVec 32) (is : List Inputs) (s : State) : Prop where
  phase : s.nco.phaseAcc = BitVec.ofNat 32 (is.countP accepted) * freqWord
  cordic : Answers (entries freqWord is.reverse) s.nco.cordic
  delay : Piped (fun _ a => a) 15 (fun _ => True) (is.map Inputs.sampleIn).reverse s.sampleDelay

theorem operands_resetState (freqWord : BitVec 32) : Operands freqWord [] resetState where
  phase := by simp [resetState, Nco.resetState]
  cordic := answers_resetState
  delay := piped_replicate trivial

theorem Operands.step {freqWord : BitVec 32} {is : List Inputs} {s : State}
    (h : Operands freqWord is s) {i : Inputs} (hrst : i.rst = false)
    (hfreq : i.freqWord = freqWord) : Operands freqWord (is ++ [i]) (DdcCore.step s i) where
  phase := by
    rw [congrArg State.nco (step_frame s i)]
    cases hacc : accepted i with
    | false =>
        have hadv : Nco.advance i.enable i.sampleValid = false := hacc
        simpa [pipeline, Nco.step, hrst, hadv, hacc] using h.phase
    | true =>
        have hadv : Nco.advance i.enable i.sampleValid = true := hacc
        simp [pipeline, Nco.step, hrst, hadv, hacc, h.phase, hfreq, BitVec.ofNat_add,
          BitVec.add_mul]
  cordic := by
    have hnext := h.cordic.step (accepted i) s.nco.phaseAcc
    have hentries : entries freqWord (is ++ [i]).reverse =
        enter (accepted i) s.nco.phaseAcc :: entries freqWord is.reverse := by
      rw [List.reverse_append, h.phase, ← List.countP_reverse]
      rfl
    rw [congrArg State.nco (step_frame s i), hentries]
    simpa [pipeline, Nco.step, hrst, accepted] using hnext
  delay := by
    have hnext := h.delay.advancePipe (fun _ _ _ => trivial) i.sampleIn
    rw [advancePipe_delay h.delay.length] at hnext
    rw [congrArg State.sampleDelay (step_frame s i)]
    simpa [pipeline, hrst] using hnext

/-! ## Which sample a phase meets -/

section Presented

variable {freqWord : BitVec 32} {is : List Inputs} {s : State}

theorem Operands.presented_early (h : Operands freqWord is s) (hlen : is.length < 18) (e : Inputs) :
    presented s e = [] := by
  have hnone : (entries freqWord is.reverse)[17]? = none := by
    rw [getElem?_entries, List.getElem?_eq_none (by simpa using Nat.le_of_lt_succ hlen)]
    rfl
  simp [presented, h.cordic.silent hnone]

/-- The oscillator answers cycle `i`; the delay line has come to cycle `j`. -/
theorem Operands.presented_late (h : Operands freqWord is s) {old rest : List Inputs}
    {i x j : Inputs} (his : is = old ++ i :: x :: j :: rest) (hrest : rest.length = 15)
    (e : Inputs) :
    presented s e =
      if accepted i then
        [(j.sampleIn, sincos (BitVec.ofNat 32 (old.countP accepted) * freqWord))]
      else
        [] := by
  have hreverse : is.reverse = rest.reverse ++ j :: x :: i :: old.reverse := by
    simp [his]
  have hentry : (entries freqWord is.reverse)[17]? = some
      (enter (accepted i) (BitVec.ofNat 32 (old.countP accepted) * freqWord)) := by
    have hdrop : rest.reverse.drop 18 = [] := List.drop_eq_nil_of_le (by simp [hrest])
    simp [getElem?_entries, hreverse, List.getElem?_append, hrest, List.drop_append, hdrop]
  have hdelay : s.sampleDelay.getLastD 0 = j.sampleIn := by
    have hlen : 15 < s.sampleDelay.length := by
      rw [h.delay.length]
      decide
    have hlast : s.sampleDelay[15]? = some (s.sampleDelay.getLastD 0) := by
      rw [List.getLastD_eq_getLast?, List.getLast?_eq_getElem?, h.delay.length,
        List.getElem?_eq_getElem hlen]
      rfl
    refine h.delay.entry 15 _ _ hlast ?_
    simp [← List.map_reverse, hreverse, hrest]
  -- `valid_out` is that of the cycle the answer belongs to, not of the delay line.
  obtain ⟨hvalid, hcos, hsin⟩ := h.cordic.answer _ hentry
  cases hacc : accepted i with
  | false =>
      simp [presented, hvalid, enter, hacc]
  | true =>
      rw [hacc] at hvalid hcos hsin
      rw [presented, hvalid, hcos, hsin, hdelay]
      rfl

end Presented

theorem ownPairs_snoc (freqWord : BitVec 32) (is : List Inputs) (e : Inputs) :
    ownPairs freqWord (is ++ [e]) = ownPairs freqWord is ++
      if accepted e then
        [(e.sampleIn, sincos (BitVec.ofNat 32 (is.countP accepted) * freqWord))]
      else
        [] := by
  cases hacc : accepted e <;> simp [ownPairs, hacc, List.mapIdx_append, List.countP_eq_length_filter]

theorem getElem?_ownPairs {freqWord : BitVec 32} {old rest : List Inputs} {i : Inputs}
    (hi : accepted i = true) :
    (ownPairs freqWord (old ++ i :: rest))[old.countP accepted]? =
      some (i.sampleIn, sincos (BitVec.ofNat 32 (old.countP accepted) * freqWord)) := by
  simp [ownPairs, hi, List.countP_eq_length_filter]

theorem concat_isPrefix_iff {α : Type} {l m : List α} {a : α} :
    l ++ [a] <+: m ↔ l <+: m ∧ m[l.length]? = some a := by
  constructor
  · rintro ⟨rest, rfl⟩
    simp
  · rintro ⟨⟨rest, rfl⟩, ha⟩
    cases rest with
    | nil =>
        simp at ha
    | cons b rest =>
        obtain rfl : b = a := by simpa using ha
        exact ⟨rest, by simp⟩

theorem isPrefix_append_iff {α : Type} {l m : List α} (hlen : l.length ≤ m.length) (x : List α) :
    l <+: m ++ x ↔ l <+: m :=
  ⟨fun h => List.prefix_of_prefix_length_le h (List.prefix_append m x) hlen,
    fun h => h.trans (List.prefix_append m x)⟩

/-- Each sample that has met its phase is also the input of two cycles later. -/
def SampleRepeats (is : List Inputs) : Prop :=
  ∀ t i j, is[t]? = some i → is[t + 2]? = some j → accepted i = true → t + 18 < is.length →
    j.sampleIn = i.sampleIn

theorem sampleRepeats_snoc_early {is : List Inputs} (hlen : is.length < 18) (e : Inputs) :
    SampleRepeats (is ++ [e]) ↔ SampleRepeats is := by
  constructor
  · intro _ t i j _ _ _ ht
    omega
  · intro _ t i j _ _ _ ht
    rw [List.length_append, List.length_singleton] at ht
    omega

theorem sampleRepeats_snoc_late {is old rest : List Inputs} {i x j : Inputs}
    (his : is = old ++ i :: x :: j :: rest) (hrest : rest.length = 15) (e : Inputs) :
    SampleRepeats (is ++ [e]) ↔
      SampleRepeats is ∧ (accepted i = true → j.sampleIn = i.sampleIn) := by
  have hlen : is.length = old.length + 18 := by
    simp [his, hrest]
  have hkeep : ∀ n, n < is.length → (is ++ [e])[n]? = is[n]? :=
    fun n hn => List.getElem?_append_left hn
  have hi : is[old.length]? = some i := by
    simp [his]
  have hj : is[old.length + 2]? = some j := by
    simp [his]
  constructor
  · intro h
    refine ⟨?_, ?_⟩
    · intro t a b ha hb hacc ht
      apply h t a b
      · rw [hkeep t (by omega), ha]
      · rw [hkeep (t + 2) (by omega), hb]
      · exact hacc
      · simp
        omega
    · intro hacc
      apply h old.length i j
      · rw [hkeep _ (by omega), hi]
      · rw [hkeep _ (by omega), hj]
      · exact hacc
      · simp [hlen]
  · rintro ⟨hold, hnew⟩ t a b ha hb hacc ht
    rw [List.length_append, List.length_singleton] at ht
    rw [hkeep _ (by omega)] at ha hb
    -- Only the pair that is answered in the new cycle is not known yet.
    rcases Nat.lt_or_ge (t + 18) is.length with hlt | hge
    · exact hold t a b ha hb hacc hlt
    · obtain rfl : t = old.length := by omega
      obtain rfl : i = a := Option.some.inj (hi.symm.trans ha)
      obtain rfl : j = b := Option.some.inj (hj.symm.trans hb)
      exact hnew hacc

theorem exists_split {is : List Inputs} (h : 18 ≤ is.length) :
    ∃ old i x j rest, is = old ++ i :: x :: j :: rest ∧ rest.length = 15 := by
  have hlen : (is.drop (is.length - 18)).length = 18 := by
    rw [List.length_drop]
    omega
  have hsplit := (List.take_append_drop (is.length - 18) is).symm
  generalize is.drop (is.length - 18) = late at hlen hsplit
  obtain ⟨i, x, j, rest, rfl⟩ : ∃ i x j rest, late = i :: x :: j :: rest := by
    rcases late with _ | ⟨i, _ | ⟨x, _ | ⟨j, rest⟩⟩⟩
    · simp at hlen
    · simp at hlen
    · simp at hlen
    · exact ⟨i, x, j, rest, rfl⟩
  exact ⟨_, i, x, j, rest, hsplit, by simpa using hlen⟩

structure Alignment (freqWord : BitVec 32) (is : List Inputs) (s : State) : Prop where
  operands : Operands freqWord is s
  count : (presentedPairs is).length = (is.take (is.length - 18)).countP accepted
  aligned : presentedPairs is <+: ownPairs freqWord is ↔ SampleRepeats is

theorem Alignment.step {freqWord : BitVec 32} {is : List Inputs}
    (h : Alignment freqWord is (runFrom DdcCore.step resetState is)) {e : Inputs}
    (hrst : e.rst = false) (hfreq : e.freqWord = freqWord) :
    Alignment freqWord (is ++ [e]) (DdcCore.step (runFrom DdcCore.step resetState is) e) := by
  have hpairs : presentedPairs (is ++ [e]) =
      presentedPairs is ++ presented (runFrom DdcCore.step resetState is) e :=
    emits_snoc _ _ _ _ _
  have hcount : (presentedPairs is).length ≤ (ownPairs freqWord is).length := by
    rw [h.count, ownPairs, List.length_mapIdx, ← List.countP_eq_length_filter]
    exact (List.take_sublist _ _).countP_le
  -- Nothing comes out in the first eighteen cycles; then each cycle answers the one eighteen before.
  rcases Nat.lt_or_ge is.length 18 with hearly | hlate
  · rw [h.operands.presented_early hearly, List.append_nil] at hpairs
    refine ⟨h.operands.step hrst hfreq, ?_, ?_⟩
    · have hnone : is.length + 1 - 18 = is.length - 18 := by omega
      have hzero : is.length - 18 = 0 := by omega
      rw [hpairs, h.count, List.length_append, List.length_singleton, hnone, hzero]
      rfl
    · rw [hpairs, ownPairs_snoc, isPrefix_append_iff hcount, h.aligned,
        sampleRepeats_snoc_early hearly]
  · obtain ⟨old, i, x, j, rest, his, hrest⟩ := exists_split hlate
    have hlen : is.length - 18 = old.length := by
      simp [his, hrest]
    have hold : (presentedPairs is).length = old.countP accepted := by
      rw [h.count, hlen, his, List.take_left]
    rw [h.operands.presented_late his hrest] at hpairs
    refine ⟨h.operands.step hrst hfreq, ?_, ?_⟩
    · have htake : (is ++ [e]).take ((is ++ [e]).length - 18) = old ++ [i] := by
        have hnext : (is ++ [e]).length - 18 = old.length + 1 := by
          simp [his, hrest]
        rw [hnext, his]
        simp [List.take_append]
      rw [hpairs, htake, List.length_append, hold]
      cases hacc : accepted i <;> simp [hacc]
    · rw [hpairs, sampleRepeats_snoc_late his hrest, ← h.aligned, ownPairs_snoc]
      cases hacc : accepted i with
      | false =>
          simpa [hacc] using isPrefix_append_iff hcount _
      | true =>
          -- The new pair has to be the next of the own ones, which agrees with it in the phase.
          have hown : (ownPairs freqWord is)[(presentedPairs is).length]? =
              some (i.sampleIn,
                sincos (BitVec.ofNat 32 (old.countP accepted) * freqWord)) := by
            rw [hold, his]
            exact getElem?_ownPairs hacc
          have hlt := (List.getElem?_eq_some_iff.1 hown).1
          rw [if_pos rfl, isPrefix_append_iff (by simpa using Nat.succ_le_of_lt hlt),
            concat_isPrefix_iff, hown]
          simp [eq_comm]

/-- In every run with one frequency word, the mixer is given each accepted sample with its own phase
exactly when no sample differs from the input of two cycles later. -/
theorem presented_iff {freqWord : BitVec 32} {is : List Inputs}
    (his : ∀ i ∈ is, i.rst = false ∧ i.freqWord = freqWord) :
    presentedPairs is <+: ownPairs freqWord is ↔
      ∀ t i j, is[t]? = some i → is[t + 2]? = some j → accepted i = true → t + 18 < is.length →
        j.sampleIn = i.sampleIn := by
  have hrun : ∀ is : List Inputs,
      Along step (fun _ i => i.rst = false ∧ i.freqWord = freqWord) resetState is →
        Alignment freqWord is (runFrom step resetState is) := by
    apply history_invariant
    · refine ⟨operands_resetState freqWord, rfl, ?_⟩
      simp [presentedPairs, ownPairs, SampleRepeats]
    · intro is e h he
      exact h.step he.1 he.2
  exact (hrun is (along_of_forall (fun _ => his))).aligned

/-- One cycle of a steady stream at frequency zero. -/
def steady (sampleIn : BitVec 16) : Inputs where
  rst := false
  enable := true
  sampleIn := sampleIn
  sampleValid := true
  freqWord := 0
  decimRate := 1
  gainShift := 0
  mAxisTready := true

theorem presented_iff_steady :
    presentedPairs (List.replicate 20 (steady 5)) <+: ownPairs 0 (List.replicate 20 (steady 5)) ∧
      (presentedPairs (List.replicate 20 (steady 5))).map Prod.fst = [5, 5] := by
  refine ⟨(presented_iff (by decide)).2 ?_, by decide +kernel⟩
  intro t i j hi hj _ _
  rw [List.eq_of_mem_replicate (List.mem_of_getElem? hi),
    List.eq_of_mem_replicate (List.mem_of_getElem? hj)]

/-- Nineteen cycles of a ramp: the first phase meets the sample 2. -/
def ramp : List Inputs :=
  (List.range 19).map (fun t => steady (BitVec.ofNat 16 t))

theorem not_presented_ramp : ¬presentedPairs ramp <+: ownPairs 0 ramp := by
  decide +kernel

end DdcCore

end Fpga
end Sdr
