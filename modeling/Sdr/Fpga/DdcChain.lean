import Sdr.Fpga.CicFilter
import Sdr.Fpga.DdcOutput
import Sdr.Fpga.Mixing

/-!
# DdcChain — from samples to output words

Everything in `ddc_core` put together.  The mixer multiplies each phase of the oscillator with the
sample two cycles after the one that advanced it (`presentedPairs_eq_metPairs`); two filters of order
three keep one of `R` products, exactly, as long as `R ^ 3 * 2 ^ 17` fits in their 56 bits; the gain stage
divides by a power of two and saturates.  With an output that is always ready, what leaves the module is
this and nothing else, four cycles later (`words_out`).
-/

namespace Sdr
namespace Fpga

namespace CicDecimator

open Lib

variable {inWidth accWidth : Nat}

theorem validInputs_append (is js : List (Inputs inWidth)) :
    validInputs (is ++ js) = validInputs is ++ validInputs js := by
  simp [validInputs]

/-- What an edge puts out. -/
def edgeOut (s : State accWidth) (i : Inputs inWidth) : List (BitVec accWidth) :=
  if (clock s i).validOut then [(clock s i).sampleOut] else []

theorem emits_edgeOut (stages : Nat) (is : List (Inputs inWidth)) :
    emits clock edgeOut (resetState stages accWidth) is =
      (outputs stages accWidth is).map Prod.snd :=
  emits_simulates (g := Prod.fst) (f := Prod.snd) (fun _ _ => rfl)
    (fun sn i => by unfold edgeOut emitted; split_ifs <;> rfl) (resetState stages accWidth, 0) is

/-- The exact outputs at a constant rate. -/
theorem toInt_outputs {rate : BitVec 16} (hrate : rate ≠ 0) {is : List (Inputs inWidth)}
    (hconst : ∀ i ∈ is, i.decimRate = rate) {M : ℤ} (hM : 0 ≤ M)
    (hle : ∀ v ∈ validInputs is, |v| ≤ M) (hfit : (rate.toNat : ℤ) ^ 3 * M < 2 ^ (accWidth - 1)) :
    (outputs 3 accWidth is).map (fun o => o.2.toInt) =
      (List.range ((validInputs is).length / rate.toNat)).map (fun m =>
        boxcar rate.toNat (validInputs is) (m * rate.toNat + (rate.toNat - 1))) := by
  have hagrees : Agrees (fun k => (validInputs is).getD k 0) is := by
    intro k v hk
    simp [hk]
  rw [outputs_eq_decimated hrate (by decide : 0 < 3) hconst hagrees, decimated, List.map_map]
  refine List.map_congr_left (fun m _ => ?_)
  have hbox : lagged rate.toNat (summed (fun k => (validInputs is).getD k 0) 3) 3
      (m * rate.toNat + (rate.toNat - 1)) =
        boxcar rate.toNat (validInputs is) (m * rate.toNat + (rate.toNat - 1)) := by
    rw [lagged_summed_three, ← back_conv_eq_boxcar]
    rfl
  have hfits := fits_of_abs_lt (lt_of_le_of_lt
    (abs_boxcar_le hM hle (m * rate.toNat + (rate.toNat - 1))) hfit)
  rw [Function.comp_apply, hbox]
  exact toInt_ofInt_of_fits hfits

end CicDecimator

namespace DdcCore

open Lib CordicSincos MixerRealToIq

/-! ## Which sample meets which phase -/

/-- The product of cycle `t`, if its sample was accepted: the phase is that of the sample, the factor
the input of two cycles later. -/
def met (freqWord : BitVec 32) (is : List Inputs) (t : Nat) :
    List (BitVec 16 × BitVec 16 × BitVec 16) :=
  match is[t]?, is[t + 2]? with
  | some i, some j =>
    if accepted i then
      [(j.sampleIn, sincos (BitVec.ofNat 32 ((is.take t).countP accepted) * freqWord))]
    else
      []
  | _, _ => []

/-- The oscillator needs eighteen cycles. -/
def metPairs (freqWord : BitVec 32) (is : List Inputs) :
    List (BitVec 16 × BitVec 16 × BitVec 16) :=
  (List.range (is.length - 18)).flatMap (met freqWord is)

theorem met_snoc (freqWord : BitVec 32) {is : List Inputs} {t : Nat} (ht : t + 2 < is.length)
    (e : Inputs) : met freqWord (is ++ [e]) t = met freqWord is t := by
  have htake : (is ++ [e]).take t = is.take t := List.take_append_of_le_length (by omega)
  rw [met, met, List.getElem?_append_left (by omega), List.getElem?_append_left ht, htake]

theorem met_split (freqWord : BitVec 32) (old : List Inputs) (i x j : Inputs)
    (rest : List Inputs) :
    met freqWord (old ++ i :: x :: j :: rest) old.length =
      if accepted i then
        [(j.sampleIn, sincos (BitVec.ofNat 32 (old.countP accepted) * freqWord))]
      else
        [] := by
  simp [met]

theorem metPairs_snoc (freqWord : BitVec 32) {is : List Inputs} {t : Nat}
    (ht : is.length = t + 18) (e : Inputs) :
    metPairs freqWord (is ++ [e]) = metPairs freqWord is ++ met freqWord is t := by
  have hnext : (is ++ [e]).length - 18 = t + 1 := by
    simp [ht]
  have hthis : is.length - 18 = t := by omega
  rw [metPairs, metPairs, hnext, hthis, List.range_succ, List.flatMap_append]
  congr 1
  · refine List.flatMap_congr (fun k hk => met_snoc freqWord ?_ e)
    have hk' := List.mem_range.1 hk
    omega
  · simpa using met_snoc freqWord (by omega) e

theorem presentedPairs_eq_metPairs {freqWord : BitVec 32} {is : List Inputs}
    (his : ∀ i ∈ is, i.rst = false ∧ i.freqWord = freqWord) :
    presentedPairs is = metPairs freqWord is := by
  have hrun : ∀ is : List Inputs,
      Along step (fun _ i => i.rst = false ∧ i.freqWord = freqWord) resetState is →
        Operands freqWord is (runFrom step resetState is) ∧
          presentedPairs is = metPairs freqWord is := by
    apply history_invariant
      (P := fun is s => Operands freqWord is s ∧ presentedPairs is = metPairs freqWord is)
    · exact ⟨operands_resetState freqWord, rfl⟩
    · rintro is e ⟨hoperands, hpairs⟩ he
      refine ⟨hoperands.step he.1 he.2, ?_⟩
      have hsnoc : presentedPairs (is ++ [e]) =
          presentedPairs is ++ presented (runFrom step resetState is) e :=
        emits_snoc _ _ _ _ _
      rcases Nat.lt_or_ge is.length 18 with hearly | hlate
      · have hnone : is.length + 1 - 18 = 0 := by omega
        have hzero : is.length - 18 = 0 := by omega
        rw [hsnoc, hoperands.presented_early hearly, hpairs, metPairs, metPairs,
          List.length_append, List.length_singleton, hnone, hzero]
        rfl
      · obtain ⟨old, i, x, j, rest, hsplit, hrest⟩ := exists_split hlate
        have hlen : is.length = old.length + 18 := by
          simp [hsplit, hrest]
        rw [hsnoc, hoperands.presented_late hsplit hrest, hpairs, metPairs_snoc freqWord hlen e,
          hsplit, met_split]
  exact (hrun is (along_of_forall (fun _ => his))).2

/-! ## The mixer -/

/-- A product in numbers: a negative one keeps the weight of its sign bit. -/
def mixed (sample trig : BitVec 16) : Int :=
  sample.toInt * trig.toInt / 2 ^ 15 + if sample.toInt * trig.toInt < 0 then 2 ^ 17 else 0

def mixI (p : BitVec 16 × BitVec 16 × BitVec 16) : Int :=
  mixed p.1 p.2.1

def mixQ (p : BitVec 16 × BitVec 16 × BitVec 16) : Int :=
  -mixed p.1 p.2.2

theorem toInt_iScaled (p : BitVec 16 × BitVec 16 × BitVec 16) :
    (iScaled p.1 p.2.1).toInt = mixI p := by
  rw [iScaled, toInt_prod_shift, toNat_prod_shift]
  rfl

theorem toInt_qScaled (p : BitVec 16 × BitVec 16 × BitVec 16) :
    (qScaled p.1 p.2.2).toInt = mixQ p := by
  rw [qScaled, toInt_neg_prod_shift, toNat_prod_shift]
  rfl

theorem abs_mixed_le (sample trig : BitVec 16) : |mixed sample trig| ≤ 2 ^ 17 := by
  obtain ⟨hlo, hhi⟩ := abs_le.1 (abs_product_le sample trig)
  rw [mixed]
  split_ifs with h
  · exact abs_le.2 ⟨by omega, by omega⟩
  · exact abs_le.2 ⟨by omega, by omega⟩

/-- The products in the output registers of the mixer. -/
def mixerOut (s : State) : List (BitVec 32 × BitVec 32) :=
  if s.mixer.validOut then [(s.mixer.iOut, s.mixer.qOut)] else []

/-- A cycle of a run out of reset with one configuration, into an output that is ready. -/
structure Flows (freqWord : BitVec 32) (rate : BitVec 16) (gainShift : BitVec 6) (i : Inputs) :
    Prop where
  rst : i.rst = false
  freqWord : i.freqWord = freqWord
  decimRate : i.decimRate = rate
  gainShift : i.gainShift = gainShift
  mAxisTready : i.mAxisTready = true

section Step

variable {s : State} {i : Inputs}

theorem mixerOut_step (hrst : i.rst = false) :
    mixerOut (step s i) =
      (presented s i).map (fun p => (iScaled p.1 p.2.1, qScaled p.1 p.2.2)) := by
  have hmixer : (step s i).mixer = MixerRealToIq.step s.mixer false (s.sampleDelay.getLastD 0)
      s.nco.cordic.cosOut s.nco.cordic.sinOut s.nco.cordic.validOut := by
    rw [congrArg State.mixer (step_frame s i)]
    simp [pipeline, hrst]
  cases hvalid : s.nco.cordic.validOut <;>
    simp [mixerOut, presented, hmixer, hvalid, MixerRealToIq.step]

theorem cicI_step (hrst : i.rst = false) :
    (step s i).cicI = CicDecimator.clock s.cicI ⟨s.mixer.iOut, s.mixer.validOut, i.decimRate⟩ := by
  rw [congrArg State.cicI (step_frame s i)]
  simp [pipeline, hrst, CicDecimator.clock]

theorem cicQ_step (hrst : i.rst = false) :
    (step s i).cicQ = CicDecimator.clock s.cicQ ⟨s.mixer.qOut, s.mixer.validOut, i.decimRate⟩ := by
  rw [congrArg State.cicQ (step_frame s i)]
  simp [pipeline, hrst, CicDecimator.clock]

/-- The output register empties every cycle, so it always takes in the next word. -/
theorem waiting_step (hrst : i.rst = false) (hready : i.mAxisTready = true) :
    waiting (step s i) = (satPair s).map wordOf := by
  unfold step output
  rw [hrst]
  cases hv : s.mAxisTvalid <;> cases hs : s.gainSat.validOut <;>
    simp [waiting, loadOutput, satPair, wordOf, packed, pipeline, hv, hready, hs]

end Step

/-! ## One filter -/

section Filter

variable {freqWord : BitVec 32} {rate : BitVec 16} {gainShift : BitVec 6} {is : List Inputs}

/-- What the filter `g` is given, from the output `inp` of the mixer. -/
def filterIn (inp : State → BitVec 32) (s : State) (i : Inputs) : List (CicDecimator.Inputs 32) :=
  [⟨inp s, s.mixer.validOut, i.decimRate⟩]

def filterOut (g : State → CicDecimator.State 56) (s : State) : List (BitVec 56) :=
  if (g s).validOut then [(g s).sampleOut] else []

theorem emits_filterOut {g : State → CicDecimator.State 56} {inp : State → BitVec 32}
    (hreset : g resetState = CicDecimator.resetState 3 56)
    (hg : ∀ s i, i.rst = false →
      g (step s i) = CicDecimator.clock (g s) ⟨inp s, s.mixer.validOut, i.decimRate⟩)
    (his : ∀ i ∈ is, i.rst = false) (last : Inputs) :
    emits step (fun s _ => filterOut g s) resetState (is ++ [last]) =
      (CicDecimator.outputs 3 56 (emits step (filterIn inp) resetState is)).map Prod.snd := by
  have halong : Along step (fun _ i => i.rst = false) resetState is :=
    along_of_forall (fun _ => his)
  have hempty : filterOut g resetState = [] := by
    rw [filterOut, hreset]
    rfl
  have hedge : emits step (fun s i => filterOut g (step s i)) resetState is =
      emits CicDecimator.clock CicDecimator.edgeOut (g resetState)
        (emits step (filterIn inp) resetState is) := by
    refine emits_feeds_along (C := fun _ i => i.rst = false) hg ?_ halong
    intro s i hi
    simp [filterIn, CicDecimator.edgeOut, filterOut, hg s i hi]
  rw [emits_registered (fun _ _ _ => rfl) halong last, hempty, List.nil_append, hedge, hreset,
    CicDecimator.emits_edgeOut]

/-- The valid inputs of a filter are the products. -/
theorem validInputs_emits (inp : State → BitVec 32) (s : State) (is : List Inputs) :
    CicDecimator.validInputs (emits step (filterIn inp) s is) =
      (emits step (fun s _ => if s.mixer.validOut then [inp s] else []) s is).map
        BitVec.toInt := by
  induction is generalizing s with
  | nil =>
      rfl
  | cons i is ih =>
      rw [emits_cons, emits_cons, CicDecimator.validInputs_append, List.map_append, ih]
      cases h : s.mixer.validOut <;> simp [filterIn, CicDecimator.validInputs, h]

theorem emits_mixerOut (his : ∀ i ∈ is, i.rst = false) (last : Inputs) :
    emits step (fun s _ => mixerOut s) resetState (is ++ [last]) =
      (presentedPairs is).map (fun p => (iScaled p.1 p.2.1, qScaled p.1 p.2.2)) := by
  have halong : Along step (fun _ i => i.rst = false) resetState is :=
    along_of_forall (fun _ => his)
  rw [emits_registered (fun s i hi => mixerOut_step hi) halong last, emits_map]
  rfl

/-! ## The output words -/

/-- The output of a filter of order three for the `m`-th block of products. -/
def boxed (rate : BitVec 16) (xs : List Int) (m : Nat) : Int :=
  CicDecimator.boxcar rate.toNat xs (m * rate.toNat + (rate.toNat - 1))

/-- Q in the high half, I in the low half. -/
def wordOfInts (gainShift : BitVec 6) (vI vQ : Int) : BitVec 32 :=
  BitVec.ofInt 16 (clamp16 (vQ / 2 ^ gainShift.toNat)) ++
    BitVec.ofInt 16 (clamp16 (vI / 2 ^ gainShift.toNat))

/-- What the samples of a run come to. -/
def words (freqWord : BitVec 32) (rate : BitVec 16) (gainShift : BitVec 6) (is : List Inputs) :
    List (BitVec 32) :=
  (List.range ((metPairs freqWord is).length / rate.toNat)).map (fun m =>
    wordOfInts gainShift (boxed rate ((metPairs freqWord is).map mixI) m)
      (boxed rate ((metPairs freqWord is).map mixQ) m))

theorem map_pair_eq {α β γ δ ι : Type} {l : List (α × β)} {r : List ι} {f : α → γ} {h : β → γ}
    {F H : ι → γ} (k : γ → γ → δ) (hfst : l.map (fun p => f p.1) = r.map F)
    (hsnd : l.map (fun p => h p.2) = r.map H) :
    l.map (fun p => k (f p.1) (h p.2)) = r.map (fun m => k (F m) (H m)) := by
  have hl : l.map (fun p => k (f p.1) (h p.2)) =
      List.zipWith k (l.map (fun p => f p.1)) (l.map (fun p => h p.2)) := by
    rw [List.zipWith_map, List.zipWith_self]
  have hr : r.map (fun m => k (F m) (H m)) = List.zipWith k (r.map F) (r.map H) := by
    rw [List.zipWith_map, List.zipWith_self]
  rw [hl, hr, hfst, hsnd]

/-- One filter of a run: every `R` products give one exact output. -/
theorem toInt_filterOut {g : State → CicDecimator.State 56} {inp : State → BitVec 32}
    (hreset : g resetState = CicDecimator.resetState 3 56)
    (hg : ∀ s i, i.rst = false →
      g (step s i) = CicDecimator.clock (g s) ⟨inp s, s.mixer.validOut, i.decimRate⟩)
    (hrate : rate ≠ 0) (hfit : rate.toNat ^ 3 * 2 ^ 17 < 2 ^ 55) {xs : List Int}
    (his : ∀ i ∈ is, i.rst = false ∧ i.decimRate = rate)
    (hxs : (emits step (fun s _ => if s.mixer.validOut then [inp s] else []) resetState is).map
      BitVec.toInt = xs) (hle : ∀ v ∈ xs, |v| ≤ 2 ^ 17) (last : Inputs) :
    (emits step (fun s _ => filterOut g s) resetState (is ++ [last])).map BitVec.toInt =
      (List.range (xs.length / rate.toNat)).map (boxed rate xs) := by
  have hconst : ∀ i ∈ emits step (filterIn inp) resetState is, i.decimRate = rate := by
    refine forall_mem_emits (D := fun i => i.decimRate = rate) ?_ (fun i hi => (his i hi).2)
    intro s i hi x hx
    rw [List.mem_singleton.1 hx]
    exact hi
  have hvalid := validInputs_emits inp resetState is
  rw [hxs] at hvalid
  have hfit' : (rate.toNat : ℤ) ^ 3 * 2 ^ 17 < 2 ^ (56 - 1) := by exact_mod_cast hfit
  have hout := CicDecimator.toInt_outputs hrate hconst (by norm_num)
    (fun v hv => hle v (hvalid ▸ hv)) hfit'
  rw [emits_filterOut hreset hg (fun i hi => (his i hi).1) last, List.map_map]
  rw [hvalid] at hout
  exact hout

theorem cicPair_of_together {s : State} (h : Together s) :
    (cicPair s).map Prod.fst = filterOut State.cicI s ∧
      (cicPair s).map Prod.snd = filterOut State.cicQ s := by
  cases hq : s.cicQ.validOut <;> simp [cicPair, filterOut, h.validOut, hq]

/-- One of the two products, on its way from the mixer to its filter. -/
theorem products_eq {inp : State → BitVec 32} {π : BitVec 32 × BitVec 32 → BitVec 32}
    {mix : BitVec 16 × BitVec 16 × BitVec 16 → Int} (hinp : ∀ s, inp s = π (s.mixer.iOut, s.mixer.qOut))
    (hmix : ∀ p : BitVec 16 × BitVec 16 × BitVec 16,
      (π (iScaled p.1 p.2.1, qScaled p.1 p.2.2)).toInt = mix p)
    (his : ∀ i ∈ is, i.rst = false ∧ i.freqWord = freqWord) (last : Inputs) :
    (emits step (fun s _ => if s.mixer.validOut then [inp s] else []) resetState
      (is ++ [last])).map BitVec.toInt = (metPairs freqWord is).map mix := by
  have hone : emits step (fun s _ => if s.mixer.validOut then [inp s] else []) resetState
      (is ++ [last]) = (emits step (fun s _ => mixerOut s) resetState (is ++ [last])).map π := by
    rw [← emits_map]
    refine emits_congr (fun _ _ _ => rfl) (fun s i _ => ?_)
    unfold mixerOut
    split_ifs <;> simp [hinp]
  rw [hone, emits_mixerOut (fun i hi => (his i hi).1) last, presentedPairs_eq_metPairs his,
    List.map_map, List.map_map]
  exact List.map_congr_left (fun p _ => hmix p)

/-- In every run out of reset with one configuration and an output that is ready, exactly these words
leave the module, in this order, four cycles after the last product they need. -/
theorem words_out (hrate : rate ≠ 0) (hfit : rate.toNat ^ 3 * 2 ^ 17 < 2 ^ 55) {a b c d : Inputs}
    (his : ∀ i ∈ is ++ [a] ++ [b] ++ [c] ++ [d], Flows freqWord rate gainShift i) :
    emits step transferred resetState (is ++ [a] ++ [b] ++ [c] ++ [d]) =
      words freqWord rate gainShift is := by
  have hflows3 : ∀ i ∈ is ++ [a] ++ [b] ++ [c], Flows freqWord rate gainShift i :=
    fun i hi => his i (List.mem_append_left _ hi)
  have hflows2 : ∀ i ∈ is ++ [a] ++ [b], Flows freqWord rate gainShift i :=
    fun i hi => hflows3 i (List.mem_append_left _ hi)
  have hflows1 : ∀ i ∈ is ++ [a], Flows freqWord rate gainShift i :=
    fun i hi => hflows2 i (List.mem_append_left _ hi)
  have hflows : ∀ i ∈ is, Flows freqWord rate gainShift i :=
    fun i hi => hflows1 i (List.mem_append_left _ hi)
  -- The output register.
  have hwords : emits step transferred resetState (is ++ [a] ++ [b] ++ [c] ++ [d]) =
      (emits step (fun s _ => satPair s) resetState (is ++ [a] ++ [b] ++ [c])).map wordOf := by
    have hready : emits step transferred resetState (is ++ [a] ++ [b] ++ [c] ++ [d]) =
        emits step (fun s _ => waiting s) resetState (is ++ [a] ++ [b] ++ [c] ++ [d]) := by
      refine emits_congr (fun _ _ _ => rfl) (fun s i hi => ?_)
      rw [transferred, (his i hi).mAxisTready]
      rfl
    rw [hready, emits_registered (C := fun _ i => i.rst = false ∧ i.mAxisTready = true)
      (fun s i hi => waiting_step hi.1 hi.2)
      (along_of_forall (fun _ i hi => ⟨(hflows3 i hi).rst, (hflows3 i hi).mAxisTready⟩)) d,
      emits_map]
    rfl
  -- The gain stage.
  have hpairs : (emits step (fun s _ => satPair s) resetState (is ++ [a] ++ [b] ++ [c])).map
      asInts =
        (emits step (fun s _ => cicPair s) resetState (is ++ [a] ++ [b])).map
          (saturated gainShift) := by
    rw [emits_snoc]
    exact emits_pairs (along_of_forall
      (fun _ i hi => ⟨(hflows2 i hi).rst, (hflows2 i hi).gainShift⟩))
  have htogether : Along step (fun s _ => Together s) resetState (is ++ [a] ++ [b]) :=
    along_invariant (C := fun _ i => i.rst = false) (fun s i h hi => h.step hi) ⟨rfl, rfl⟩
      (along_of_forall (fun _ i hi => (hflows2 i hi).rst))
  -- The mixer.
  have htuned : ∀ i ∈ is, i.rst = false ∧ i.freqWord = freqWord :=
    fun i hi => ⟨(hflows i hi).rst, (hflows i hi).freqWord⟩
  have hprodI := products_eq (π := Prod.fst) (fun s => (rfl : s.mixer.iOut = _))
    toInt_iScaled htuned a
  have hprodQ := products_eq (π := Prod.snd) (fun s => (rfl : s.mixer.qOut = _))
    toInt_qScaled htuned a
  -- The two filters.
  have hrates : ∀ i ∈ is ++ [a], i.rst = false ∧ i.decimRate = rate :=
    fun i hi => ⟨(hflows1 i hi).rst, (hflows1 i hi).decimRate⟩
  have hleI : ∀ v ∈ (metPairs freqWord is).map mixI, |v| ≤ 2 ^ 17 := by
    intro v hv
    obtain ⟨p, -, rfl⟩ := List.mem_map.1 hv
    exact abs_mixed_le _ _
  have hleQ : ∀ v ∈ (metPairs freqWord is).map mixQ, |v| ≤ 2 ^ 17 := by
    intro v hv
    obtain ⟨p, -, rfl⟩ := List.mem_map.1 hv
    rw [mixQ, abs_neg]
    exact abs_mixed_le _ _
  have houtI := toInt_filterOut rfl (fun s i hi => cicI_step hi) hrate hfit hrates hprodI hleI b
  have houtQ := toInt_filterOut rfl (fun s i hi => cicQ_step hi) hrate hfit hrates hprodQ hleQ b
  rw [← emits_congr_along (fun s _ h => (cicPair_of_together h).1) htogether, emits_map,
    List.map_map, List.length_map] at houtI
  rw [← emits_congr_along (fun s _ h => (cicPair_of_together h).2) htogether, emits_map,
    List.map_map, List.length_map] at houtQ
  have hwordOf : ∀ p, wordOf p = BitVec.ofInt 16 (asInts p).2.1 ++ BitVec.ofInt 16 (asInts p).1 := by
    intro p
    simp [wordOf, asInts]
  calc
    emits step transferred resetState (is ++ [a] ++ [b] ++ [c] ++ [d])
        = ((emits step (fun s _ => satPair s) resetState (is ++ [a] ++ [b] ++ [c])).map asInts).map
            (fun p => BitVec.ofInt 16 p.2.1 ++ BitVec.ofInt 16 p.1) := by
          rw [hwords, List.map_map]
          exact List.map_congr_left (fun p _ => hwordOf p)
    _ = (emits step (fun s _ => cicPair s) resetState (is ++ [a] ++ [b])).map
          (fun p => wordOfInts gainShift p.1.toInt p.2.toInt) := by
          rw [hpairs, List.map_map]
          rfl
    _ = words freqWord rate gainShift is := map_pair_eq (wordOfInts gainShift) houtI houtQ

end Filter

/-- A steady stream at rate 2. -/
def flowing : Inputs :=
  { steady 5 with decimRate := 2 }

theorem words_out_flowing :
    emits step transferred resetState
        (List.replicate 30 flowing ++ [flowing] ++ [flowing] ++ [flowing] ++ [flowing]) =
      words 0 2 0 (List.replicate 30 flowing) ∧
      words 0 2 0 (List.replicate 30 flowing) =
        [0, 0x80000004, 0x8000001c, 0x80000020, 0x80000020, 0x80000020] := by
  refine ⟨words_out (by decide) (by decide) ?_, by decide +kernel⟩
  intro i hi
  have hflowing : i = flowing := by
    simpa using hi
  rw [hflowing]
  exact ⟨rfl, rfl, rfl, rfl, rfl⟩

end DdcCore
end Fpga
end Sdr
