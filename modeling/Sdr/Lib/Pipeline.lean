import Mathlib.Data.List.Basic

/-!
# Pipeline — registers in a row with a function between them

An edge puts a new entry into the first register and moves every other one place on, through the
function of the place it leaves.  What stands in register `j` is then the entry of `j` edges ago after
the first `j` functions (`Piped`), or a leftover of the registers' first contents.  A delay line is the
case of functions that change nothing.
-/

namespace Sdr
namespace Lib

universe u

variable {α : Type u}

/-- The registers after an edge that takes in `a`: `n + 1` of them, with `n` functions in between. -/
def advancePipe (f : Nat → α → α) (n : Nat) (a : α) (pipe : List α) : List α :=
  a :: List.zipWith f (List.range n) pipe

/-- An entry behind the first `j` functions. -/
def through (f : Nat → α → α) : Nat → α → α
  | 0, a => a
  | j + 1, a => f j (through f j a)

/-- Register `j` holds entry `j` of the history, newest first, or a leftover that meets `I`. -/
structure Piped (f : Nat → α → α) (n : Nat) (I : α → Prop) (history pipe : List α) : Prop where
  length : pipe.length = n + 1
  entry : ∀ (j : Nat) (a b : α), pipe[j]? = some a → history[j]? = some b → a = through f j b
  leftover : ∀ (j : Nat) (a : α), pipe[j]? = some a → history[j]? = none → I a

section Piped

variable {f : Nat → α → α} {n : Nat} {I : α → Prop} {history pipe : List α}

theorem getElem?_advancePipe_succ {a c : α} {j : Nat}
    (h : (advancePipe f n a pipe)[j + 1]? = some c) : ∃ d, pipe[j]? = some d ∧ f j d = c := by
  obtain ⟨k, d, hk, hd, rfl⟩ := List.getElem?_zipWith_eq_some.1 h
  obtain ⟨hlt, rfl⟩ := List.getElem?_eq_some_iff.1 hk
  exact ⟨d, hd, by rw [List.getElem_range]⟩

theorem piped_replicate {a : α} (ha : I a) : Piped f n I [] (List.replicate (n + 1) a) where
  length := by simp
  entry := by simp
  leftover := by
    intro j b hb _
    rw [List.eq_of_mem_replicate (List.mem_of_getElem? hb)]
    exact ha

theorem Piped.advancePipe (h : Piped f n I history pipe) (hI : ∀ j a, I a → I (f j a)) (a : α) :
    Piped f n I (a :: history) (advancePipe f n a pipe) where
  length := by
    simp [Lib.advancePipe, h.length]
  entry := by
    intro j c b hc hb
    cases j with
    | zero =>
        obtain rfl : a = c := by simpa [Lib.advancePipe] using hc
        simpa [through] using hb
    | succ j =>
        obtain ⟨d, hd, rfl⟩ := getElem?_advancePipe_succ hc
        rw [h.entry j d b hd (by simpa using hb)]
        rfl
  leftover := by
    intro j c hc hnone
    cases j with
    | zero =>
        simp at hnone
    | succ j =>
        obtain ⟨d, hd, rfl⟩ := getElem?_advancePipe_succ hc
        exact hI j d (h.leftover j d hd (by simpa using hnone))

/-- A delay line drops its last register's value. -/
theorem advancePipe_delay {a : α} (h : pipe.length = n + 1) :
    advancePipe (fun _ b => b) n a pipe = a :: pipe.dropLast := by
  have hzip : ∀ (l : List Nat) (m : List α), List.zipWith (fun _ b => b) l m = m.take l.length := by
    intro l
    induction l with
    | nil =>
        simp
    | cons k l ih =>
        intro m
        cases m with
        | nil =>
            rfl
        | cons b m =>
            simpa using ih m
  rw [advancePipe, hzip, List.length_range, List.dropLast_eq_take, h]
  rfl

end Piped

end Lib
end Sdr
