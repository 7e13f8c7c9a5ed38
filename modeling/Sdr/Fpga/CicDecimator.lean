import Mathlib.Data.BitVec
import Mathlib.Data.List.Basic

/-!
# CicDecimator — integrators, a rate counter and combs

Model of `fpga/rtl/dsp/cic_decimator.v` for any number of stages and any widths.  All integrators read
their values from before the edge, so one edge adds the shifted list to itself; the combs run through
blocking assignments inside one edge (`comb`).
-/

namespace Sdr
namespace Fpga
namespace CicDecimator

variable {inWidth accWidth : Nat}

structure State (accWidth : Nat) where
  integrator : List (BitVec accWidth)
  combDelay : List (BitVec accWidth)
  decimCount : BitVec 16
  sampleOut : BitVec accWidth
  validOut : Bool

def resetState (stages accWidth : Nat) : State accWidth where
  integrator := List.replicate stages 0
  combDelay := List.replicate stages 0
  decimCount := 0
  sampleOut := 0
  validOut := false

def decimSafe (decimRate : BitVec 16) : BitVec 16 :=
  if decimRate = 0 then 1 else decimRate

def decimFire (s : State accWidth) (validIn : Bool) (decimRate : BitVec 16) : Bool :=
  validIn && (s.decimCount == decimSafe decimRate - 1)

/-- Every integrator adds the one before it, the first the input. -/
def integrate (s : State accWidth) (sampleIn : BitVec inWidth) : List (BitVec accWidth) :=
  List.zipWith (· + ·) s.integrator (sampleIn.signExtend accWidth :: s.integrator)

/-- The loop over the combs: the new delays, and `comb_value` after the last one. -/
def comb (combValue : BitVec accWidth) :
    List (BitVec accWidth) → List (BitVec accWidth) × BitVec accWidth
  | [] => ([], combValue)
  | delay :: delays =>
    let rest := comb (combValue - delay) delays
    (combValue :: rest.1, rest.2)

def step (s : State accWidth) (rst : Bool) (sampleIn : BitVec inWidth) (validIn : Bool)
    (decimRate : BitVec 16) : State accWidth :=
  if rst then
    resetState s.integrator.length accWidth
  else if validIn then
    if decimFire s validIn decimRate then
      let combs := comb (s.integrator.getLastD 0) s.combDelay
      { integrator := integrate s sampleIn
        combDelay := combs.1
        decimCount := 0
        sampleOut := combs.2
        validOut := true }
    else
      { s with
        integrator := integrate s sampleIn
        decimCount := s.decimCount + 1
        validOut := false }
  else
    { s with validOut := false }

end CicDecimator
end Fpga
end Sdr
