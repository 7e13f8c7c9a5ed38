import Mathlib.Data.BitVec
import Mathlib.Data.List.Basic

/-!
# Nco — the oscillator of the down-converter

Models of `fpga/rtl/dsp/cordic_sincos.v` and `fpga/rtl/dsp/nco.v` with a phase of 32 bits, amplitudes
of 16 and sixteen stages.  The pipeline registers of one stage are one `Stage`; an edge moves every
stage one place on, rotated on the way.
-/

namespace Sdr
namespace Fpga

/-! ## `cordic_sincos` -/

namespace CordicSincos

def CORDIC_K : BitVec 20 := 19898

def atanConst : Nat → BitVec 32
  | 0 => 0x20000000
  | 1 => 0x12e4051e
  | 2 => 0x09fb385b
  | 3 => 0x051111d4
  | 4 => 0x028b0d43
  | 5 => 0x0145d7e1
  | 6 => 0x00a2f61e
  | 7 => 0x00517c55
  | 8 => 0x0028be53
  | 9 => 0x00145f2f
  | 10 => 0x000a2f98
  | 11 => 0x000517cc
  | 12 => 0x00028be6
  | 13 => 0x000145f3
  | 14 => 0x0000a2fa
  | 15 => 0x0000517d
  | _ => 0

/-- `x_pipe[i]`, `y_pipe[i]`, `z_pipe[i]`, `quadrant_pipe[i]` and `valid_pipe[i]`. -/
structure Stage where
  valid : Bool
  x : BitVec 20
  y : BitVec 20
  z : BitVec 32
  quadrant : BitVec 2

structure State where
  /-- Stages 0 to 16. -/
  pipe : List Stage
  validOut : Bool
  cosOut : BitVec 16
  sinOut : BitVec 16

def Stage.reset : Stage where
  valid := false
  x := 0
  y := 0
  z := 0
  quadrant := 0

def resetState : State where
  pipe := List.replicate 17 Stage.reset
  validOut := false
  cosOut := 0
  sinOut := 0

/-- Stage 0 of the next cycle. -/
def enter (validIn : Bool) (phase : BitVec 32) : Stage where
  valid := validIn
  x := CORDIC_K
  y := 0
  z := (phase.extractLsb' 0 30).setWidth 32
  quadrant := phase.extractLsb' 30 2

/-- Stage `i + 1` of the next cycle from stage `i`. -/
def rotate (i : Nat) (g : Stage) : Stage :=
  if !g.z.msb then
    { g with
      x := g.x - g.y.sshiftRight i
      y := g.y + g.x.sshiftRight i
      z := g.z - atanConst i }
  else
    { g with
      x := g.x + g.y.sshiftRight i
      y := g.y - g.x.sshiftRight i
      z := g.z + atanConst i }

def satAmp (value : BitVec 20) : BitVec 16 :=
  if (32767 : Int) < value.toInt then 0x7fff
  else if value.toInt < -32768 then 0x8000
  else value.extractLsb' 0 16

/-- `cos_mapped` and `sin_mapped`. -/
def mapped (g : Stage) : BitVec 20 × BitVec 20 :=
  match g.quadrant.toNat with
  | 0 => (g.x, g.y)
  | 1 => (-g.y, g.x)
  | 2 => (-g.x, -g.y)
  | _ => (g.y, -g.x)

/-- Stage 16. -/
def lastStage (s : State) : Stage :=
  s.pipe.getD 16 Stage.reset

def step (s : State) (rst validIn : Bool) (phase : BitVec 32) : State :=
  if rst then
    resetState
  else
    { pipe := enter validIn phase :: List.zipWith rotate (List.range 16) s.pipe
      validOut := (lastStage s).valid
      cosOut := satAmp (mapped (lastStage s)).1
      sinOut := satAmp (mapped (lastStage s)).2 }

end CordicSincos

/-! ## `nco` -/

namespace Nco

structure State where
  phaseAcc : BitVec 32
  cordic : CordicSincos.State

def resetState : State where
  phaseAcc := 0
  cordic := CordicSincos.resetState

def advance (enable sampleValid : Bool) : Bool :=
  enable && sampleValid

def step (s : State) (rst enable sampleValid : Bool) (freqWord : BitVec 32) : State where
  phaseAcc :=
    if rst then 0
    else if advance enable sampleValid then s.phaseAcc + freqWord
    else s.phaseAcc
  cordic := CordicSincos.step s.cordic rst (advance enable sampleValid) s.phaseAcc

end Nco

end Fpga
end Sdr
