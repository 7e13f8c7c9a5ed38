import Mathlib.Algebra.Order.Ring.Abs
import Mathlib.Algebra.Order.Ring.Int
import Mathlib.Data.BitVec

/-!
# FixedPoint — registers read as signed integers

A register of `w` bits holds the integers from `-2 ^ (w - 1)` up to `2 ^ (w - 1)`.  Its arithmetic is
that of the integers as long as the result fits (`Fits`), an arithmetic shift is a division that rounds
down, and the low bits of a value that fits them are the value.
-/

namespace Sdr
namespace Lib

/-- The integer is the value of a signed register of `w` bits. -/
def Fits (w : Nat) (v : Int) : Prop :=
  -2 ^ w ≤ 2 * v ∧ 2 * v < 2 ^ w

section Fits

variable {w : Nat} {x y : BitVec w}

theorem bmod_of_fits {v : Int} (h : Fits w v) : v.bmod (2 ^ w) = v := by
  obtain ⟨hlo, hhi⟩ := h
  apply Int.bmod_eq_of_le_mul_two
  · push_cast
    omega
  · push_cast
    omega

theorem toInt_ofInt_of_fits {v : Int} (h : Fits w v) : (BitVec.ofInt w v).toInt = v := by
  rw [BitVec.toInt_ofInt]
  exact bmod_of_fits h

theorem toInt_add_of_fits {a b : Int} (hx : x.toInt = a) (hy : y.toInt = b)
    (h : Fits w (a + b)) : (x + y).toInt = a + b := by
  rw [BitVec.toInt_add, hx, hy]
  exact bmod_of_fits h

theorem toInt_sub_of_fits {a b : Int} (hx : x.toInt = a) (hy : y.toInt = b)
    (h : Fits w (a - b)) : (x - y).toInt = a - b := by
  rw [BitVec.toInt_sub, hx, hy]
  exact bmod_of_fits h

theorem toInt_neg_of_fits {a : Int} (hx : x.toInt = a) (h : Fits w (-a)) : (-x).toInt = -a := by
  rw [BitVec.toInt_neg, hx]
  exact bmod_of_fits h

theorem toInt_mul_of_fits {a b : Int} (hx : x.toInt = a) (hy : y.toInt = b)
    (h : Fits w (a * b)) : (x * y).toInt = a * b := by
  rw [BitVec.toInt_mul, hx, hy]
  exact bmod_of_fits h

/-- An arithmetic shift rounds down. -/
theorem toInt_sshiftRight_eq_ediv (x : BitVec w) (n : Nat) :
    (x.sshiftRight n).toInt = x.toInt / 2 ^ n := by
  rw [BitVec.toInt_sshiftRight, Int.shiftRight_eq_div_pow]
  push_cast
  rfl

theorem toInt_extractLsb'_of_fits {v : Nat} (hv : v ≤ w) (h : Fits v x.toInt) :
    (x.extractLsb' 0 v).toInt = x.toInt := by
  rw [← BitVec.setWidth_eq_extractLsb' hv, ← BitVec.signExtend_eq_setWidth_of_le x hv]
  exact toInt_ofInt_of_fits h

/-- The integer limited to sixteen signed bits. -/
def clamp16 (v : Int) : Int :=
  max (-32768) (min v 32767)

/-- Two comparisons and the low bits limit a register. -/
theorem toInt_saturate (hw : 16 ≤ w) {v : Int} (hx : x.toInt = v) :
    (if 32767 < v then (0x7fff : BitVec 16)
      else if v < -32768 then 0x8000 else x.extractLsb' 0 16).toInt = clamp16 v := by
  rw [clamp16]
  split_ifs with hmax hmin
  · rw [min_eq_right (le_of_lt hmax)]
    rfl
  · rw [min_eq_left (by omega), max_eq_left (le_of_lt hmin)]
    rfl
  · rw [min_eq_left (by omega), max_eq_right (by omega), ← hx]
    exact toInt_extractLsb'_of_fits hw ⟨by omega, by omega⟩

theorem clamp16_ne_iff (v : Int) : clamp16 v ≠ v ↔ 32767 < v ∨ v < -32768 := by
  rw [clamp16]
  omega

theorem abs_clamp16_le (v : Int) : |clamp16 v| ≤ |v| := by
  rcases le_total 0 v with h | h
  · rw [abs_of_nonneg h, clamp16]
    exact abs_le.2 ⟨by omega, by omega⟩
  · rw [abs_of_nonpos h, clamp16]
    exact abs_le.2 ⟨by omega, by omega⟩

theorem le_abs_clamp16 {v : Int} (h : clamp16 v ≠ v) : 32767 ≤ |clamp16 v| := by
  rcases (clamp16_ne_iff v).1 h with hmax | hmin
  · have hclamp : clamp16 v = 32767 := by
      rw [clamp16]
      omega
    rw [hclamp]
    decide
  · have hclamp : clamp16 v = -32768 := by
      rw [clamp16]
      omega
    rw [hclamp]
    decide

end Fits

end Lib
end Sdr
