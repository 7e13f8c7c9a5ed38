import Mathlib.Data.BitVec
import Sdr.Lib.Cordic
import Sdr.Lib.FixedPoint
import Sdr.Fpga.Mixing

/-!
# CordicConvergence — the oscillator's sixteen stages

The stages of `cordic_sincos` compute the turns of `Lib.Turning` in registers of 20 and 32 bits.  The
constants of the stages bound the residual angle, and the length grows from `CORDIC_K` to about 32767
with an error of less than `√2` for each stage; so no register wraps on the way, whatever the phase,
and the outputs lie near the circle even where they are saturated (`cordic_converges`).
-/

namespace Sdr
namespace Fpga
namespace CordicSincos

open Lib

/-! ## Bounds -/

def angle (i : Nat) : Int :=
  (atanConst i).toInt

/-- The angles from stage `i` on, and the last one once more. -/
def residualBound (i : Nat) : Int :=
  ((List.range' i (16 - i)).map angle).sum + angle 15

/-- Bounds on the length at stage `i`, in hundredths. -/
def lengthBounds : Nat → Int × Int
  | 0 => (1989800, 1989800)
  | 1 => (2813860, 2814144)
  | 2 => (3145849, 3146451)
  | 3 => (3242525, 3243429)
  | 4 => (3267617, 3268812)
  | 5 => (3273851, 3275332)
  | 6 => (3275307, 3277073)
  | 7 => (3275565, 3277615)
  | 8 => (3275523, 3277857)
  | 9 => (3275406, 3278024)
  | 10 => (3275270, 3278172)
  | 11 => (3275130, 3278315)
  | 12 => (3274988, 3278457)
  | 13 => (3274846, 3278599)
  | 14 => (3274704, 3278741)
  | 15 => (3274562, 3278883)
  | _ => (3274420, 3279025)

theorem residualBound_step : ∀ i < 16,
    residualBound i = angle i + residualBound (i + 1) ∧ angle i ≤ residualBound (i + 1) := by
  decide

theorem residualBound_le : ∀ i ≤ 16, residualBound i ≤ 0x47072397 := by
  decide

theorem lengthBounds_le : ∀ i ≤ 16, (lengthBounds i).2 ≤ 3279025 := by
  decide

/-- An error of `1.4143` fits between the bounds of two stages. -/
theorem lengthBounds_step : ∀ i < 16,
    4 ^ i * (100 * (lengthBounds (i + 1)).1 + 14143) ^ 2 ≤
        (4 ^ i + 1) * (100 * (lengthBounds i).1) ^ 2 ∧
      (4 ^ i + 1) * (100 * (lengthBounds i).2) ^ 2 ≤
        4 ^ i * (100 * (lengthBounds (i + 1)).2 - 14143) ^ 2 ∧
        0 ≤ (lengthBounds i).1 ∧ 14143 ≤ 100 * (lengthBounds (i + 1)).2 := by
  decide

/-! ## The exact stages -/

/-- Stage `i` for a phase, in integers without a width. -/
def exactStage (phase : BitVec 32) (i : Nat) : Turning :=
  Turning.turns angle i ⟨CORDIC_K.toInt, 0, (phase.toNat % 2 ^ 30 : Nat)⟩

theorem abs_exactStage_z_le (phase : BitVec 32) {i : Nat} (hi : i ≤ 16) :
    |(exactStage phase i).z| ≤ residualBound i := by
  apply Turning.abs_residual_le
  · intro k hk
    exact (residualBound_step k (by omega)).1
  · intro k hk
    exact (residualBound_step k (by omega)).2
  · have hlt : phase.toNat % 2 ^ 30 < 2 ^ 30 := Nat.mod_lt _ (by decide)
    have hbound : residualBound 0 = 0x47072397 := by decide
    rw [hbound]
    exact abs_le.2 ⟨by simp only; omega, by simp only; omega⟩

noncomputable section

def shortest (i : Nat) : ℝ :=
  (lengthBounds i).1 / 100

def longest (i : Nat) : ℝ :=
  (lengthBounds i).2 / 100

theorem sqrt_two_le : √2 ≤ (14143 / 10000 : ℝ) := by
  rw [Real.sqrt_le_iff]
  norm_num

/-- A comparison of squares in ten-thousandths, as one of real numbers. -/
theorem scale_square (k : Nat) (h : Int) :
    ((h : ℝ) / 100) ^ 2 * (1 + 1 / 4 ^ k) =
      (((4 ^ k + 1) * (100 * h) ^ 2 : Int) : ℝ) / (4 ^ k * 10 ^ 8) := by
  push_cast
  field_simp
  norm_num

theorem unscale_square (k : Nat) (m : Int) :
    (((4 ^ k * m ^ 2 : Int) : ℝ) / (4 ^ k * 10 ^ 8)) = ((m : ℝ) / 10000) ^ 2 := by
  push_cast
  field_simp
  norm_num

theorem shortest_step {k : Nat} (hk : k < 16) :
    shortest (k + 1) + √2 ≤ shortest k * Turning.gain k := by
  obtain ⟨hcheck, -, hnonneg, -⟩ := lengthBounds_step k hk
  have hsq : (((100 * (lengthBounds (k + 1)).1 + 14143 : Int) : ℝ) / 10000) ^ 2 ≤
      shortest k ^ 2 * (1 + 1 / 4 ^ k) := by
    rw [shortest, scale_square, ← unscale_square k]
    gcongr
  have hgain := Turning.le_mul_gain (by unfold shortest; positivity) hsq
  refine le_trans ?_ hgain
  rw [shortest]
  push_cast
  linarith [sqrt_two_le]

theorem longest_step {k : Nat} (hk : k < 16) :
    longest k * Turning.gain k + √2 ≤ longest (k + 1) := by
  obtain ⟨-, hcheck, -, hroom⟩ := lengthBounds_step k hk
  have hsq : longest k ^ 2 * (1 + 1 / 4 ^ k) ≤
      (((100 * (lengthBounds (k + 1)).2 - 14143 : Int) : ℝ) / 10000) ^ 2 := by
    rw [longest, scale_square, ← unscale_square k]
    gcongr
  have hnonneg : (0 : Int) ≤ 100 * (lengthBounds (k + 1)).2 - 14143 := by omega
  have hgain := Turning.mul_gain_le (by positivity) hsq
  refine le_trans (add_le_add hgain sqrt_two_le) ?_
  rw [longest]
  push_cast
  linarith

theorem norm_exactStage (phase : BitVec 32) {i : Nat} (hi : i ≤ 16) :
    shortest i ≤ ‖(exactStage phase i).point‖ ∧ ‖(exactStage phase i).point‖ ≤ longest i := by
  apply Turning.norm_turns_mem
  · intro k hk
    exact shortest_step (by omega)
  · intro k hk
    exact longest_step (by omega)
  · have hstart : ‖(exactStage phase 0).point‖ = 19898 := by
      have hpoint : (exactStage phase 0).point = ((19898 : ℝ) : ℂ) := by
        apply Complex.ext
        · have hk : CORDIC_K.toInt = 19898 := by decide
          simp [exactStage, Turning.turns, through, Turning.point, hk]
        · simp [exactStage, Turning.turns, through, Turning.point]
      rw [hpoint, Complex.norm_of_nonneg (by norm_num)]
    change shortest 0 ≤ ‖(exactStage phase 0).point‖ ∧ ‖(exactStage phase 0).point‖ ≤ longest 0
    rw [hstart]
    norm_num [shortest, longest, lengthBounds]

theorem abs_exactStage_le (phase : BitVec 32) {i : Nat} (hi : i ≤ 16) :
    |(exactStage phase i).x| ≤ 32791 ∧ |(exactStage phase i).y| ≤ 32791 := by
  have hlong : ‖(exactStage phase i).point‖ ≤ 32791 := by
    refine le_trans (norm_exactStage phase hi).2 ?_
    have hcast : ((lengthBounds i).2 : ℝ) ≤ 3279025 := by
      exact_mod_cast lengthBounds_le i hi
    rw [longest]
    linarith
  have hx := le_trans (Complex.abs_re_le_norm (exactStage phase i).point) hlong
  have hy := le_trans (Complex.abs_im_le_norm (exactStage phase i).point) hlong
  rw [Turning.point_re] at hx
  rw [Turning.point_im] at hy
  exact ⟨by exact_mod_cast hx, by exact_mod_cast hy⟩

/-- The squared length of the last stage. -/
theorem sq_exactStage_mem (phase : BitVec 32) :
    32743 ^ 2 ≤ (exactStage phase 16).x ^ 2 + (exactStage phase 16).y ^ 2 ∧
      (exactStage phase 16).x ^ 2 + (exactStage phase 16).y ^ 2 ≤ 32791 ^ 2 := by
  obtain ⟨hshort, hlong⟩ := norm_exactStage phase (le_refl 16)
  have hsq : ‖(exactStage phase 16).point‖ ^ 2 =
      (((exactStage phase 16).x ^ 2 + (exactStage phase 16).y ^ 2 : Int) : ℝ) := by
    rw [Complex.sq_norm, Complex.normSq_apply, Turning.point_re, Turning.point_im]
    push_cast
    ring
  have hlo : (32743 : ℝ) ≤ ‖(exactStage phase 16).point‖ := by
    refine le_trans ?_ hshort
    norm_num [shortest, lengthBounds]
  have hhi : ‖(exactStage phase 16).point‖ ≤ 32791 := by
    refine le_trans hlong ?_
    norm_num [longest, lengthBounds]
  -- Squared, the bounds are about integers again.
  have hlo' := pow_le_pow_left₀ (by norm_num) hlo 2
  have hhi' := pow_le_pow_left₀ (norm_nonneg _) hhi 2
  rw [hsq] at hlo' hhi'
  exact ⟨by exact_mod_cast hlo', by exact_mod_cast hhi'⟩

end

/-! ## The registers -/

/-- The registers of a stage hold these integers. -/
structure Holds (g : Stage) (v : Turning) : Prop where
  x : g.x.toInt = v.x
  y : g.y.toInt = v.y
  z : g.z.toInt = v.z

/-- The integers are in the signed ranges of the registers of a stage. -/
structure InRange (v : Turning) : Prop where
  x : Fits 20 v.x
  y : Fits 20 v.y
  z : Fits 32 v.z

theorem inRange_exactStage (phase : BitVec 32) {i : Nat} (hi : i ≤ 16) :
    InRange (exactStage phase i) := by
  obtain ⟨hx, hy⟩ := abs_exactStage_le phase hi
  have hz := le_trans (abs_exactStage_z_le phase hi) (residualBound_le i hi)
  rw [abs_le] at hx hy hz
  exact ⟨⟨by omega, by omega⟩, ⟨by omega, by omega⟩, ⟨by omega, by omega⟩⟩

/-- A stage computes a turn, unless a register wraps. -/
theorem Holds.rotate {g : Stage} {v : Turning} (h : Holds g v) (i : Nat)
    (hfits : InRange (v.turn i (angle i))) : Holds (rotate i g) (v.turn i (angle i)) := by
  have hx : (g.x.sshiftRight i).toInt = v.x / 2 ^ i := by
    rw [toInt_sshiftRight_eq_ediv, h.x]
  have hy : (g.y.sshiftRight i).toInt = v.y / 2 ^ i := by
    rw [toInt_sshiftRight_eq_ediv, h.y]
  have hmsb : g.z.msb = decide (v.z < 0) := by
    rw [BitVec.msb_eq_toInt, h.z]
  -- The sign bit of `z` decides on which side the stage turns.
  by_cases hz : 0 ≤ v.z
  · have hturn : v.turn i (angle i) = ⟨v.x - v.y / 2 ^ i, v.y + v.x / 2 ^ i, v.z - angle i⟩ :=
      if_pos hz
    have hneg : g.z.msb = false := by
      simpa [hmsb] using hz
    rw [hturn] at hfits ⊢
    rw [CordicSincos.rotate, hneg]
    exact ⟨toInt_sub_of_fits h.x hy hfits.x, toInt_add_of_fits h.y hx hfits.y,
      toInt_sub_of_fits h.z rfl hfits.z⟩
  · have hturn : v.turn i (angle i) = ⟨v.x + v.y / 2 ^ i, v.y - v.x / 2 ^ i, v.z + angle i⟩ :=
      if_neg hz
    have hneg : g.z.msb = true := by
      simpa [hmsb] using hz
    rw [hturn] at hfits ⊢
    rw [CordicSincos.rotate, hneg]
    exact ⟨toInt_add_of_fits h.x hy hfits.x, toInt_sub_of_fits h.y hx hfits.y,
      toInt_add_of_fits h.z rfl hfits.z⟩

theorem holds_enter (valid : Bool) (phase : BitVec 32) :
    Holds (enter valid phase) (exactStage phase 0) where
  x := rfl
  y := rfl
  z := by
    have hlt : phase.toNat % 2 ^ 30 < 2 ^ 30 := Nat.mod_lt _ (by decide)
    have hz : (enter valid phase).z.toNat = phase.toNat % 2 ^ 30 := by
      rw [enter, BitVec.toNat_setWidth, BitVec.extractLsb'_toNat, Nat.shiftRight_zero]
      exact Nat.mod_eq_of_lt (by omega)
    rw [BitVec.toInt_eq_toNat_of_lt (by omega), hz]
    rfl

theorem holds_stage (valid : Bool) (phase : BitVec 32) {i : Nat} (hi : i ≤ 16) :
    Holds (through rotate i (enter valid phase)) (exactStage phase i) := by
  induction i with
  | zero =>
      exact holds_enter valid phase
  | succ i ih =>
      exact (ih (by omega)).rotate i (inRange_exactStage phase hi)

/-! ## The outputs -/

theorem toInt_satAmp (value : BitVec 20) : (satAmp value).toInt = clamp16 value.toInt :=
  toInt_saturate (by decide) rfl

/-- The quadrant exchanges and negates the two coordinates. -/
theorem mapped_sq {g : Stage} {v : Turning} (h : Holds g v)
    (hv : |v.x| ≤ 32791 ∧ |v.y| ≤ 32791) :
    (mapped g).1.toInt ^ 2 + (mapped g).2.toInt ^ 2 = v.x ^ 2 + v.y ^ 2 := by
  rw [abs_le, abs_le] at hv
  have hx : (-g.x).toInt = -v.x := toInt_neg_of_fits h.x ⟨by omega, by omega⟩
  have hy : (-g.y).toInt = -v.y := toInt_neg_of_fits h.y ⟨by omega, by omega⟩
  have hquadrant := g.quadrant.isLt
  rcases (by omega : g.quadrant.toNat = 0 ∨ g.quadrant.toNat = 1 ∨ g.quadrant.toNat = 2 ∨
    g.quadrant.toNat = 3) with hq | hq | hq | hq
  · simp [mapped, hq, h.x, h.y]
  · simp [mapped, hq, h.x, hy, add_comm]
  · simp [mapped, hq, hx, hy]
  · simp [mapped, hq, hx, h.y, add_comm]

/-- Limiting the coordinates of a vector near the circle leaves it there. -/
theorem clamp16_sq_mem {c s : Int} (hlo : 32743 ^ 2 ≤ c ^ 2 + s ^ 2)
    (hhi : c ^ 2 + s ^ 2 ≤ 32791 ^ 2) :
    32743 ^ 2 ≤ clamp16 c ^ 2 + clamp16 s ^ 2 ∧ clamp16 c ^ 2 + clamp16 s ^ 2 ≤ 32791 ^ 2 := by
  have hle : ∀ v : Int, clamp16 v ^ 2 ≤ v ^ 2 := fun v => sq_le_sq.2 (abs_clamp16_le v)
  have hrail : ∀ v : Int, clamp16 v ≠ v → 32743 ^ 2 ≤ clamp16 v ^ 2 := by
    intro v hv
    rw [← sq_abs (clamp16 v)]
    exact pow_le_pow_left₀ (by decide) (le_trans (by decide) (le_abs_clamp16 hv)) 2
  refine ⟨?_, le_trans (add_le_add (hle c) (hle s)) hhi⟩
  -- A coordinate at a rail is long enough alone.
  by_cases hc : clamp16 c = c
  · by_cases hs : clamp16 s = s
    · rw [hc, hs]
      exact hlo
    · exact le_trans (hrail s hs) (le_add_of_nonneg_left (sq_nonneg _))
  · exact le_trans (hrail c hc) (le_add_of_nonneg_right (sq_nonneg _))

theorem sincos_near_circle (phase : BitVec 32) :
    32743 ^ 2 ≤ (sincos phase).1.toInt ^ 2 + (sincos phase).2.toInt ^ 2 ∧
      (sincos phase).1.toInt ^ 2 + (sincos phase).2.toInt ^ 2 ≤ 32791 ^ 2 := by
  have hmapped := mapped_sq (holds_stage true phase (le_refl 16))
    (abs_exactStage_le phase (le_refl 16))
  obtain ⟨hlo, hhi⟩ := sq_exactStage_mem phase
  rw [← hmapped] at hlo hhi
  rw [sincos, toInt_satAmp, toInt_satAmp]
  exact clamp16_sq_mem hlo hhi

/-- What holds of the stages for one phase. -/
structure Converges (phase : BitVec 32) : Prop where
  /-- Every register holds the integer of the unbounded recursion, which is in its range. -/
  stages : ∀ (valid : Bool) (i : Nat), i ≤ 16 →
    InRange (exactStage phase i) ∧
      Holds (through rotate i (enter valid phase)) (exactStage phase i)
  residual : |(through rotate 16 (enter true phase)).z.toInt| ≤ 0x517d
  length_ge : 32743 ^ 2 ≤ (sincos phase).1.toInt ^ 2 + (sincos phase).2.toInt ^ 2
  length_le : (sincos phase).1.toInt ^ 2 + (sincos phase).2.toInt ^ 2 ≤ 32791 ^ 2

/-- The sixteen stages converge for every phase. -/
theorem cordic_converges (phase : BitVec 32) : Converges phase := by
  refine ⟨?_, ?_, (sincos_near_circle phase).1, (sincos_near_circle phase).2⟩
  · intro valid i hi
    exact ⟨inRange_exactStage phase hi, holds_stage valid phase hi⟩
  · rw [(holds_stage true phase (le_refl 16)).z]
    exact abs_exactStage_z_le phase (le_refl 16)

/-! ## Runs -/

/-- One cycle out of reset, with `valid_in` and `phase`. -/
def clock (s : State) (i : Bool × BitVec 32) : State :=
  step s false i.1 i.2

theorem answers_runFrom (is : List (Bool × BitVec 32)) :
    Answers (is.map (fun i => enter i.1 i.2)).reverse (runFrom clock resetState is) := by
  have hrun : ∀ is : List (Bool × BitVec 32), Along clock (fun _ _ => True) resetState is →
      Answers (is.map (fun i => enter i.1 i.2)).reverse (runFrom clock resetState is) := by
    apply history_invariant
    · exact answers_resetState
    · intro is i h _
      simpa [clock] using h.step i.1 i.2
  exact hrun is (along_of_forall (fun _ _ _ => trivial))

/-- Whatever the cycles, a valid stage holds the integers of the phase that entered it. -/
theorem stage_converges {is : List (Bool × BitVec 32)} {j : Nat} {g : Stage}
    (hg : (runFrom clock resetState is).pipe[j]? = some g) (hvalid : g.valid = true) :
    ∃ phase, InRange (exactStage phase j) ∧ Holds g (exactStage phase j) := by
  have h := answers_runFrom is
  have hj : j ≤ 16 := by
    have hlt := (List.getElem?_eq_some_iff.1 hg).1
    rw [h.pipe.length] at hlt
    omega
  cases hentry : (is.map (fun i => enter i.1 i.2)).reverse[j]? with
  | none =>
      rw [h.pipe.leftover j g hg hentry] at hvalid
      exact absurd hvalid (by decide)
  | some b =>
      obtain ⟨i, -, rfl⟩ := List.mem_map.1 (List.mem_reverse.1 (List.mem_of_getElem? hentry))
      refine ⟨i.2, inRange_exactStage i.2 hj, ?_⟩
      rw [h.pipe.entry j g _ hg hentry]
      exact holds_stage i.1 i.2 hj

/-- And the outputs that come with `valid_out` lie near the circle. -/
theorem outputs_near_circle {is : List (Bool × BitVec 32)}
    (hvalid : (runFrom clock resetState is).validOut = true) :
    32743 ^ 2 ≤ (runFrom clock resetState is).cosOut.toInt ^ 2 +
        (runFrom clock resetState is).sinOut.toInt ^ 2 ∧
      (runFrom clock resetState is).cosOut.toInt ^ 2 +
        (runFrom clock resetState is).sinOut.toInt ^ 2 ≤ 32791 ^ 2 := by
  have h := answers_runFrom is
  cases hentry : (is.map (fun i => enter i.1 i.2)).reverse[17]? with
  | none =>
      rw [h.silent hentry] at hvalid
      exact absurd hvalid (by decide)
  | some b =>
      obtain ⟨i, -, rfl⟩ := List.mem_map.1 (List.mem_reverse.1 (List.mem_of_getElem? hentry))
      obtain ⟨hentered, hcos, hsin⟩ := h.answer _ hentry
      have hi : i.1 = true := hentered.symm.trans hvalid
      rw [hcos, hsin, hi]
      exact sincos_near_circle i.2

end CordicSincos
end Fpga
end Sdr
