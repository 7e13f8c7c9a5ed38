import Mathlib.Data.Nat.Bits

/-!
# TogglePulse — pulses carried across a clock boundary by a toggle

A pulse is sent by flipping one bit; the receiver passes the bit through three flops and calls the
last two being different a pulse.  The bit alone cannot count: two flips between two samples cancel.

`Stages` is what the bits stand for when that never happens.  It counts the flips that were sent and
those each flop has seen, and carries as its fields that each count lags the one before it by at most
one; each flop is then the parity of its count.  A flip may be sent only once the previous one has been
sampled (`send`), and three samples with no flip in between bring every count up to the number sent
(`Settled`).
-/

namespace Sdr
namespace Lib

/-- One count follows another at a distance of at most one. -/
def Lags (behind ahead : Nat) : Prop :=
  behind ≤ ahead ∧ ahead ≤ behind + 1

theorem lags_self (n : Nat) : Lags n n :=
  ⟨Nat.le_refl n, Nat.le_succ n⟩

structure Stages where
  sent : Nat
  seen1 : Nat
  seen2 : Nat
  seen3 : Nat
  lags1 : Lags seen1 sent
  lags2 : Lags seen2 seen1
  lags3 : Lags seen3 seen2

namespace Stages

def zero : Stages where
  sent := 0
  seen1 := 0
  seen2 := 0
  seen3 := 0
  lags1 := lags_self 0
  lags2 := lags_self 0
  lags3 := lags_self 0

/-- One flip, after the previous one has been sampled. -/
def send (p : Stages) (h : p.seen1 = p.sent) : Stages :=
  { p with
    sent := p.sent + 1
    lags1 := by
      rw [h]
      exact ⟨Nat.le_succ p.sent, Nat.le_refl _⟩ }

/-- One edge of the receiving clock. -/
def sample (p : Stages) : Stages where
  sent := p.sent
  seen1 := p.sent
  seen2 := p.seen1
  seen3 := p.seen2
  lags1 := lags_self p.sent
  lags2 := p.lags1
  lags3 := p.lags2

/-- The receiver sees a pulse: the last two flops differ. -/
def pulse (p : Stages) : Bool :=
  Nat.bodd p.seen2 ^^ Nat.bodd p.seen3

theorem pulse_iff (p : Stages) : p.pulse = true ↔ p.seen2 = p.seen3 + 1 := by
  rcases p.lags3 with ⟨hle, hsucc⟩
  rcases Nat.eq_or_lt_of_le hle with heq | hlt
  · simp [pulse, heq]
  · -- One apart: the parities differ.
    have hnext : p.seen2 = p.seen3 + 1 := by omega
    simp [pulse, hnext, Nat.bodd_succ]

theorem seen3_add_pulse (p : Stages) : p.seen3 + p.pulse.toNat = p.seen2 := by
  rcases p.lags3 with ⟨hle, hsucc⟩
  have hpulse := p.pulse_iff
  cases h : p.pulse with
  | false =>
      have hne : p.seen2 ≠ p.seen3 + 1 := by
        intro heq
        simp [hpulse.2 heq] at h
      simp
      omega
  | true =>
      simpa using (hpulse.1 h).symm

/-! ## Settling -/

/-- `n` samples have been taken since the last flip. -/
def Settled (n : Nat) (p : Stages) : Prop :=
  (1 ≤ n → p.seen1 = p.sent) ∧ (2 ≤ n → p.seen2 = p.sent) ∧ (3 ≤ n → p.seen3 = p.sent)

theorem settled_zero (p : Stages) : Settled 0 p := by
  simp [Settled]

theorem Settled.sample {n : Nat} {p : Stages} (h : Settled n p) : Settled (n + 1) p.sample := by
  refine ⟨fun _ => rfl, fun hn => h.1 (by omega), fun hn => h.2.1 (by omega)⟩

theorem Settled.seen2_eq {n : Nat} {p : Stages} (h : Settled n p) (hn : 3 ≤ n) :
    p.seen2 = p.sent := by
  exact h.2.1 (by omega)

theorem Settled.seen3_eq {n : Nat} {p : Stages} (h : Settled n p) (hn : 3 ≤ n) :
    p.seen3 = p.sent := by
  exact h.2.2 hn

end Stages

end Lib
end Sdr
