import Mathlib.Data.Nat.ModEq

/-!
# SplitCounter — reading a running counter in two halves

A counter of two base-`M` digits runs modulo `M * M`.  It is read one digit at a time, and between
the two reads it counts `d` further.  What is put together is a value that the counter had between
the reads exactly when the low digit did not come out smaller at the second read, or the counter
came round to where it started; whichever digit is read first.
-/

namespace Sdr
namespace Lib
namespace SplitCounter

variable {M : Nat}

/-- The two digits as a number. -/
def join (M high low : Nat) : Nat :=
  low + M * high

/-- The counter showed `v` at some point while it counted `d` further from `c`. -/
def Had (M c d v : Nat) : Prop :=
  ∃ k, k ≤ d ∧ (c + k) % (M * M) = v

/-- Counting `d` further from `c` does not leave a smaller low digit, or goes all the way round. -/
def Untorn (M c d : Nat) : Prop :=
  c % M ≤ (c % M + d) % M ∨ M * M ≤ c % M + d

instance (c d : Nat) : Decidable (Untorn M c d) :=
  inferInstanceAs (Decidable (_ ∨ _))

/-- Short of coming round, these are the values from the first to the last. -/
theorem had_iff_between {c d : Nat} (h : c + d < M * M) (v : Nat) :
    Had M c d v ↔ c ≤ v ∧ v ≤ c + d := by
  constructor
  · rintro ⟨k, hk, rfl⟩
    rw [Nat.mod_eq_of_lt (by omega)]
    omega
  · rintro ⟨hstart, hstop⟩
    exact ⟨v - c, by omega, by rw [Nat.mod_eq_of_lt (by omega)]; omega⟩

theorem mod_eq_join_iff {x high low : Nat} (hlow : low < M) :
    x % (M * M) = join M high low ↔ x % M = low ∧ x / M % M = high := by
  have hM : 0 < M := by omega
  rw [Nat.mod_mul, join]
  constructor
  · intro h
    have hmod : x % M = low := by
      have := congrArg (· % M) h
      simpa [Nat.add_mul_mod_self_left, Nat.mod_eq_of_lt hlow] using this
    refine ⟨hmod, ?_⟩
    rw [hmod] at h
    exact Nat.eq_of_mul_eq_mul_left hM (Nat.add_left_cancel h)
  · rintro ⟨rfl, rfl⟩
    rfl

/-- Counting on from `c` carries into the high digit as often as the low digit comes round. -/
theorem add_div_eq (hM : 0 < M) (c k : Nat) : (c + k) / M = c / M + (c % M + k) / M := by
  have hsplit : c + k = c % M + k + M * (c / M) := by
    have := Nat.mod_add_div c M
    omega
  rw [hsplit, Nat.add_mul_div_left _ _ hM, Nat.add_comm]

/-- The values the counter had are those of as many carries as fit. -/
theorem had_join_iff (hM : 0 < M) {c d high low : Nat} (hlow : low < M) :
    Had M c d (join M high low) ↔
      ∃ carry, c % M ≤ low + M * carry ∧ low + M * carry ≤ c % M + d ∧
        (c / M + carry) % M = high := by
  simp only [Had, mod_eq_join_iff hlow]
  constructor
  · rintro ⟨k, hk, hmod, hdiv⟩
    rw [← Nat.mod_add_mod] at hmod
    rw [add_div_eq hM] at hdiv
    have hsplit := Nat.mod_add_div (c % M + k) M
    rw [hmod] at hsplit
    exact ⟨_, by omega, by omega, hdiv⟩
  · rintro ⟨carry, hstart, hstop, hhigh⟩
    have hsplit : c % M + (low + M * carry - c % M) = low + M * carry := by omega
    refine ⟨low + M * carry - c % M, by omega, ?_, ?_⟩
    · rw [← Nat.mod_add_mod, hsplit, Nat.add_mul_mod_self_left, Nat.mod_eq_of_lt hlow]
    · rw [add_div_eq hM, hsplit, Nat.add_mul_div_left _ _ hM, Nat.div_eq_of_lt hlow, Nat.zero_add,
        hhigh]

/-- Carries that are the same modulo `M` and both fewer than `M` are the same. -/
theorem eq_of_add_mod_eq {h a b : Nat} (ha : a < M) (hb : b < M) (heq : (h + a) % M = (h + b) % M) :
    a = b := by
  have hmodEq : a ≡ b [MOD M] := Nat.ModEq.add_left_cancel' h heq
  calc
    a = a % M := (Nat.mod_eq_of_lt ha).symm
    _ = b % M := hmodEq
    _ = b := Nat.mod_eq_of_lt hb

/-- All the way round is `M` carries. -/
theorem round_iff {l d r q : Nat} (hr : r < M) (hsplit : r + M * q = l + d) :
    M * M ≤ l + d ↔ M ≤ q := by
  rw [← hsplit]
  constructor
  · intro h
    by_contra hlt
    have hle : M * (q + 1) ≤ M * M := Nat.mul_le_mul_left M (by omega)
    rw [Nat.mul_succ] at hle
    omega
  · intro h
    have hle : M * M ≤ M * q := Nat.mul_le_mul_left M h
    omega

/-- The low digit is read first, the high one after `d` further counts. -/
theorem had_lowFirst_iff (hM : 0 < M) (c d : Nat) :
    Had M c d (join M ((c + d) / M % M) (c % M)) ↔ Untorn M c d := by
  have hl : c % M < M := Nat.mod_lt _ hM
  have hr : (c % M + d) % M < M := Nat.mod_lt _ hM
  have hsplit := Nat.mod_add_div (c % M + d) M
  rw [had_join_iff hM hl, add_div_eq hM, Untorn, round_iff hr hsplit]
  generalize c % M = l at *
  generalize c / M = h at *
  generalize (l + d) % M = r at *
  generalize (l + d) / M = q at *
  constructor
  · rintro ⟨carry, -, hstop, hhigh⟩
    by_contra htorn
    rw [not_or, not_le, not_le] at htorn
    -- As many carries as there were do not fit, and no other number of them shows the same digit.
    have hle : carry ≤ q := by
      by_contra hgt
      have := Nat.mul_le_mul_left M (show q + 1 ≤ carry by omega)
      rw [Nat.mul_succ] at this
      omega
    have hsame := eq_of_add_mod_eq (lt_of_le_of_lt hle htorn.2) htorn.2 hhigh
    rw [hsame] at hstop
    omega
  · rintro (hle | hround)
    · exact ⟨q, by omega, by omega, rfl⟩
    · have hback : M * (q - M) + M * M = M * q := by
        rw [← Nat.mul_add, Nat.sub_add_cancel hround]
      have hsquare : M ≤ M * M := Nat.le_mul_of_pos_left M hM
      refine ⟨q - M, by omega, by omega, ?_⟩
      rw [← Nat.add_mod_right, Nat.add_assoc, Nat.sub_add_cancel hround]

/-- The high digit is read first, the low one after `d` further counts. -/
theorem had_highFirst_iff (hM : 0 < M) (c d : Nat) :
    Had M c d (join M (c / M % M) ((c + d) % M)) ↔ Untorn M c d := by
  have hl : c % M < M := Nat.mod_lt _ hM
  have hr : (c % M + d) % M < M := Nat.mod_lt _ hM
  have hsplit := Nat.mod_add_div (c % M + d) M
  rw [← Nat.mod_add_mod, had_join_iff hM hr, Untorn, round_iff hr hsplit]
  generalize c % M = l at *
  generalize c / M = h at *
  generalize (l + d) % M = r at *
  generalize (l + d) / M = q at *
  constructor
  · rintro ⟨carry, hstart, hstop, hhigh⟩
    by_contra htorn
    rw [not_or, not_le, not_le] at htorn
    have hle : carry ≤ q := by
      have : M * carry ≤ M * q := by omega
      exact Nat.le_of_mul_le_mul_left this hM
    -- The digit of the first read is that of no carry at all, and the low digit then is too small.
    have hnone := eq_of_add_mod_eq (b := 0) (lt_of_le_of_lt hle htorn.2) hM hhigh
    rw [hnone] at hstart
    omega
  · rintro (hle | hround)
    · exact ⟨0, by omega, by omega, rfl⟩
    · have hsquare : M ≤ M * M := Nat.le_mul_of_pos_left M hM
      have hfits : M * M ≤ M * q := Nat.mul_le_mul_left M hround
      exact ⟨M, by omega, by omega, Nat.add_mod_right _ _⟩

end SplitCounter
end Lib
end Sdr
