import Mathlib.Data.Nat.Find
import Mathlib.Data.BitVec

/-!
# GrayCode — pointers that cross a clock boundary

A binary counter is published to another clock domain as a reflected Gray code.  This module proves
what such a crossing needs, for every width:

* `encode` is injective, so comparing codes compares counters;
* a sampler that takes each bit of the code *independently* as its value before or after an
  increment still sees one of the two whole codes (`pick_encode_succ`), wrap-around included;
* adding half of the counter's range flips the two top bits of the code and no other bit
  (`getLsbD_encode_add_half`), which is how a full ring is told from an empty one;
* counters taken modulo `2 ^ w` are equal exactly when the naturals behind them are, as long as
  these lie in a window shorter than `2 ^ w` (`ofNat_inj_window`).
-/

namespace Sdr
namespace Lib
namespace Gray

variable {w : Nat}

/-- Reflected Gray code of a `w`-bit counter. -/
def encode (x : BitVec w) : BitVec w :=
  (x >>> 1) ^^^ x

/-- A sampler that takes the bits marked in `sel` from `new` and the others from `old`. -/
def pick (sel old new : BitVec w) : BitVec w :=
  (new &&& sel) ||| (old &&& ~~~sel)

@[simp] theorem getLsbD_encode (x : BitVec w) (i : Nat) :
    (encode x).getLsbD i = (x.getLsbD (i + 1) ^^ x.getLsbD i) := by
  simp [encode, Nat.add_comm 1 i]

theorem getLsbD_pick (sel old new : BitVec w) (i : Nat) :
    (pick sel old new).getLsbD i =
      if sel.getLsbD i then new.getLsbD i else old.getLsbD i := by
  have hbits : (pick sel old new).getLsbD i =
      ((new.getLsbD i && sel.getLsbD i) || (old.getLsbD i && (decide (i < w) && !sel.getLsbD i))) := by
    simp only [pick, BitVec.getLsbD_or, BitVec.getLsbD_and, BitVec.getLsbD_not]
  rw [hbits]
  by_cases hi : i < w
  · cases sel.getLsbD i <;> simp [hi]
  · have hold : old.getLsbD i = false := BitVec.getLsbD_of_ge old i (Nat.le_of_not_lt hi)
    cases sel.getLsbD i <;> simp [hold]

@[simp] theorem pick_self (sel x : BitVec w) : pick sel x x = x := by
  apply BitVec.eq_of_getLsbD_eq
  intro i _
  simp [getLsbD_pick]

/-! ## Injectivity -/

theorem encode_injective {x y : BitVec w} (h : encode x = encode y) : x = y := by
  -- The top bit of a code is the top bit of the counter; each bit below follows from the one above.
  have hdown : ∀ k i : Nat, w ≤ i + k → x.getLsbD i = y.getLsbD i := by
    intro k
    induction k with
    | zero =>
        intro i hi
        rw [BitVec.getLsbD_of_ge x i (by simpa using hi), BitVec.getLsbD_of_ge y i (by simpa using hi)]
    | succ k ih =>
        intro i hi
        have habove : x.getLsbD (i + 1) = y.getLsbD (i + 1) := ih (i + 1) (by omega)
        have hcode : (encode x).getLsbD i = (encode y).getLsbD i := by rw [h]
        rw [getLsbD_encode, getLsbD_encode, habove] at hcode
        exact Bool.xor_right_inj.1 hcode
  apply BitVec.eq_of_getLsbD_eq
  intro i _
  exact hdown w i (by omega)

@[simp] theorem encode_inj {x y : BitVec w} : encode x = encode y ↔ x = y :=
  ⟨encode_injective, fun h => by rw [h]⟩

/-! ## One increment changes one bit -/

/-- An increment flips the trailing ones of the counter and the zero above them. -/
theorem exists_getLsbD_succ (x : BitVec w) :
    ∃ k, ∀ i, i < w → (x + 1#w).getLsbD i = (x.getLsbD i ^^ decide (i ≤ k)) := by
  -- The lowest zero; above the width every bit reads as zero, so there is one.
  have hex : ∃ k, x.getLsbD k = false := ⟨w, BitVec.getLsbD_of_ge x w (Nat.le_refl w)⟩
  refine ⟨Nat.find hex, ?_⟩
  intro i hi
  -- The carry reaches bit `i` exactly when all bits below it are ones.
  have hcarry : BitVec.carry i x 1#w false = decide (i ≤ Nat.find hex ∧ i ≠ 0) := by
    cases i with
    | zero =>
        simp
    | succ j =>
        rw [BitVec.carry_succ_one j x (by omega)]
        have hiff : (∀ m ≤ j, x.getLsbD m = true) ↔ j + 1 ≤ Nat.find hex := by
          rw [Nat.le_find_iff]
          constructor
          · intro hall m hm
            simp [hall m (by omega)]
          · intro hall m hm
            simpa using hall m (by omega)
        refine decide_eq_decide.2 (hiff.trans ?_)
        exact ⟨fun hle => ⟨hle, Nat.succ_ne_zero j⟩, And.left⟩
  rw [BitVec.getLsbD_add hi, hcarry]
  cases i with
  | zero =>
      simp [hi]
  | succ j =>
      simp

/-- Consecutive codes agree everywhere but at one bit, also when the counter wraps around. -/
theorem exists_encode_succ_agree (x : BitVec w) :
    ∃ k, ∀ i, i ≠ k → (encode (x + 1#w)).getLsbD i = (encode x).getLsbD i := by
  rcases exists_getLsbD_succ x with ⟨z, hz⟩
  refine ⟨min z (w - 1), ?_⟩
  intro i hi
  by_cases hw : i < w
  · rw [getLsbD_encode, getLsbD_encode, hz i hw]
    by_cases hw' : i + 1 < w
    · -- Both the bit and its neighbour flip, or neither does.
      rw [hz (i + 1) hw']
      have hsame : decide (i + 1 ≤ z) = decide (i ≤ z) := by
        apply decide_eq_decide.2
        omega
      rw [hsame]
      cases x.getLsbD i <;> cases x.getLsbD (i + 1) <;> cases decide (i ≤ z) <;> rfl
    · -- The top bit has no neighbour: it flips only if it is the bit `k`.
      have htop : decide (i ≤ z) = false := by
        apply decide_eq_false
        omega
      rw [BitVec.getLsbD_of_ge (x + 1#w) (i + 1) (by omega),
        BitVec.getLsbD_of_ge x (i + 1) (by omega), htop]
      simp
  · rw [BitVec.getLsbD_of_ge _ i (by omega), BitVec.getLsbD_of_ge _ i (by omega)]

/-- Sampling the two codes around an increment bit by bit yields one of them. -/
theorem pick_encode_succ (sel x : BitVec w) :
    pick sel (encode x) (encode (x + 1#w)) = encode x ∨
      pick sel (encode x) (encode (x + 1#w)) = encode (x + 1#w) := by
  rcases exists_encode_succ_agree x with ⟨k, hk⟩
  cases hsel : sel.getLsbD k with
  | false =>
      left
      apply BitVec.eq_of_getLsbD_eq
      intro i _
      rw [getLsbD_pick]
      by_cases hik : i = k
      · simp [hik, hsel]
      · rw [hk i hik]
        simp
  | true =>
      right
      apply BitVec.eq_of_getLsbD_eq
      intro i _
      rw [getLsbD_pick]
      by_cases hik : i = k
      · simp [hik, hsel]
      · rw [hk i hik]
        simp

/-! ## Half a turn -/

theorem getLsbD_add_half (n : Nat) (x : BitVec (n + 1)) (i : Nat) :
    (x + BitVec.twoPow (n + 1) n).getLsbD i = (x.getLsbD i ^^ decide (i = n)) := by
  by_cases hi : i < n + 1
  · have hcarry : BitVec.carry i x (BitVec.twoPow (n + 1) n) false = false := by
      -- Below bit `n` the summand has no ones, so nothing is carried.
      have hdvd : 2 ^ n % 2 ^ (n + 1) % 2 ^ i = 0 := by
        rw [Nat.mod_eq_of_lt (Nat.pow_lt_pow_right (by omega) (by omega))]
        exact Nat.mod_eq_zero_of_dvd (Nat.pow_dvd_pow 2 (by omega))
      have hlt : x.toNat % 2 ^ i < 2 ^ i := Nat.mod_lt _ (Nat.two_pow_pos i)
      simp [BitVec.carry, hdvd, hlt]
    rw [BitVec.getLsbD_add hi, hcarry, BitVec.getLsbD_twoPow]
    have hcomm : decide (n = i) = decide (i = n) := decide_eq_decide.2 eq_comm
    simp [hi, hcomm]
  · rw [BitVec.getLsbD_of_ge _ i (by omega), BitVec.getLsbD_of_ge x i (by omega)]
    have hne : i ≠ n := by omega
    simp [hne]

/-- Half a turn of the counter flips the two top bits of its code. -/
theorem getLsbD_encode_add_half (n : Nat) (x : BitVec (n + 1)) (i : Nat) :
    (encode (x + BitVec.twoPow (n + 1) n)).getLsbD i =
      ((encode x).getLsbD i ^^ decide (i = n ∨ i + 1 = n)) := by
  rw [getLsbD_encode, getLsbD_encode, getLsbD_add_half, getLsbD_add_half]
  by_cases h1 : i = n
  · have h2 : i + 1 ≠ n := by omega
    simp [h1]
  · by_cases h2 : i + 1 = n
    · simp [h2, h1]
    · simp [h1, h2]

/-! ## Counters modulo the width -/

theorem ofNat_succ (w a : Nat) : BitVec.ofNat w (a + 1) = BitVec.ofNat w a + 1#w :=
  BitVec.ofNat_add a 1

/-- Inside a window shorter than the range, equal counters stand for equal naturals. -/
theorem ofNat_inj_window {w a b : Nat} (hab : a ≤ b) (hlt : b < a + 2 ^ w) :
    BitVec.ofNat w a = BitVec.ofNat w b ↔ a = b := by
  constructor
  · intro h
    -- Equal residues differ by a multiple of `2 ^ w`, and only zero fits the window.
    have hmod : a % 2 ^ w = b % 2 ^ w := by
      simpa using congrArg BitVec.toNat h
    have hsub : (b - a) % 2 ^ w = 0 := Nat.sub_mod_eq_zero_of_mod_eq hmod.symm
    rw [Nat.mod_eq_of_lt (by omega)] at hsub
    omega
  · intro h
    rw [h]

end Gray
end Lib
end Sdr
