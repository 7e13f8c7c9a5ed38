import Sdr.Lib.Machine
import Sdr.Lib.GrayCode

/-!
# AxisAsyncFifo — the stream FIFO between the ADC clock and the AXI clock

Model of `fpga/rtl/stream/axis_async_fifo.v`.  The two `always` blocks are driven by two unrelated
clocks, so one step of the model is one *instant* (`Tick`) at which `s_clk`, `m_clk` or both have a
rising edge.  Registers of a domain whose clock does not rise keep their values.

The first synchroniser flops `s_gray_m1` and `m_gray_s1` sample a register of the other domain.  When
both clocks rise at the same instant the sampled pointer is changing under the sampler, and each of
its bits is read independently as its old or its new value; the choice is part of the tick.
-/

namespace Sdr
namespace Fpga
namespace AxisAsyncFifo

open Lib

variable {width addrWidth : Nat}

/-! ## Registers and ports -/

structure State (width addrWidth : Nat) where
  mem : BitVec addrWidth → BitVec width
  sBin : BitVec (addrWidth + 1)
  sGray : BitVec (addrWidth + 1)
  sGrayM1 : BitVec (addrWidth + 1)
  sGrayM2 : BitVec (addrWidth + 1)
  mBin : BitVec (addrWidth + 1)
  mGray : BitVec (addrWidth + 1)
  mGrayS1 : BitVec (addrWidth + 1)
  mGrayS2 : BitVec (addrWidth + 1)
  sFull : Bool
  mEmpty : Bool

/-- One instant: the clocks that rise, the input ports, and the bits the first synchroniser flops
read as already changed (`sSees` for `s_gray_m1`, `mSees` for `m_gray_s1`). -/
structure Tick (width addrWidth : Nat) where
  sClk : Bool
  sRst : Bool
  sTdata : BitVec width
  sTvalid : Bool
  mClk : Bool
  mRst : Bool
  mTready : Bool
  sSees : BitVec (addrWidth + 1)
  mSees : BitVec (addrWidth + 1)

/-! ## Continuous assignments -/

def sPush (s : State width addrWidth) (t : Tick width addrWidth) : Bool :=
  t.sTvalid && !s.sFull

def mPop (s : State width addrWidth) (t : Tick width addrWidth) : Bool :=
  t.mTready && !s.mEmpty

def sBinNext (s : State width addrWidth) (t : Tick width addrWidth) : BitVec (addrWidth + 1) :=
  s.sBin + (BitVec.ofBool (sPush s t)).setWidth (addrWidth + 1)

def sGrayNext (s : State width addrWidth) (t : Tick width addrWidth) : BitVec (addrWidth + 1) :=
  Gray.encode (sBinNext s t)

def mBinNext (s : State width addrWidth) (t : Tick width addrWidth) : BitVec (addrWidth + 1) :=
  s.mBin + (BitVec.ofBool (mPop s t)).setWidth (addrWidth + 1)

def mGrayNext (s : State width addrWidth) (t : Tick width addrWidth) : BitVec (addrWidth + 1) :=
  Gray.encode (mBinNext s t)

/-- The concatenation of the inverted two top bits with the bits below them. -/
def invertTop (g : BitVec (addrWidth + 1)) : BitVec (addrWidth + 1) :=
  (~~~(g.extractLsb' (addrWidth - 1) 2) ++ g.extractLsb' 0 (addrWidth - 1)).setWidth (addrWidth + 1)

def fullNext (s : State width addrWidth) (t : Tick width addrWidth) : Bool :=
  sGrayNext s t == invertTop s.sGrayM2

def emptyNext (s : State width addrWidth) (t : Tick width addrWidth) : Bool :=
  mGrayNext s t == s.mGrayS2

def sTready (s : State width addrWidth) : Bool :=
  !s.sFull

def mTvalid (s : State width addrWidth) : Bool :=
  !s.mEmpty

def mTdata (s : State width addrWidth) : BitVec width :=
  s.mem (s.mBin.setWidth addrWidth)

/-! ## The two clocked blocks -/

/-- `s_gray` right after the instant. -/
def sGrayAfter (s : State width addrWidth) (t : Tick width addrWidth) : BitVec (addrWidth + 1) :=
  if t.sClk then if t.sRst then 0 else sGrayNext s t else s.sGray

/-- `m_gray` right after the instant. -/
def mGrayAfter (s : State width addrWidth) (t : Tick width addrWidth) : BitVec (addrWidth + 1) :=
  if t.mClk then if t.mRst then 0 else mGrayNext s t else s.mGray

/-- `always @(posedge s_clk)`. -/
def sEdge (s : State width addrWidth) (t : Tick width addrWidth) : State width addrWidth :=
  if t.sRst then
    { s with sBin := 0, sGray := 0, sGrayM1 := 0, sGrayM2 := 0, sFull := false }
  else
    { s with
      -- Two flops in a row; the first samples a pointer that may be changing.
      sGrayM1 := Gray.pick t.sSees s.mGray (mGrayAfter s t)
      sGrayM2 := s.sGrayM1
      mem := if sPush s t then Function.update s.mem (s.sBin.setWidth addrWidth) t.sTdata else s.mem
      sBin := sBinNext s t
      sGray := sGrayNext s t
      sFull := fullNext s t }

/-- `always @(posedge m_clk)`: reads the registers `s` from before the instant, writes into `r`. -/
def mEdge (s : State width addrWidth) (t : Tick width addrWidth) (r : State width addrWidth) :
    State width addrWidth :=
  if t.mRst then
    { r with mBin := 0, mGray := 0, mGrayS1 := 0, mGrayS2 := 0, mEmpty := true }
  else
    { r with
      -- `m_gray_s1` and `m_gray_s2` are the same two flops the other way.
      mGrayS1 := Gray.pick t.mSees s.sGray (sGrayAfter s t)
      mGrayS2 := s.mGrayS1
      mBin := mBinNext s t
      mGray := mGrayNext s t
      mEmpty := emptyNext s t }

def step (s : State width addrWidth) (t : Tick width addrWidth) : State width addrWidth :=
  -- Non-blocking assignments: both blocks read the registers from before the instant.
  let r := if t.sClk then sEdge s t else s
  if t.mClk then mEdge s t r else r

/-- The registers after both sides have been reset together; the memory has no reset. -/
def resetState (mem : BitVec addrWidth → BitVec width) : State width addrWidth :=
  { mem := mem
    sBin := 0, sGray := 0, sGrayM1 := 0, sGrayM2 := 0
    mBin := 0, mGray := 0, mGrayS1 := 0, mGrayS2 := 0
    sFull := false
    mEmpty := true }

theorem step_both_reset (s : State width addrWidth) (t : Tick width addrWidth)
    (hclk : t.sClk = true ∧ t.mClk = true) (hrst : t.sRst = true ∧ t.mRst = true) :
    step s t = resetState s.mem := by
  simp [step, sEdge, mEdge, resetState, hclk.1, hclk.2, hrst.1, hrst.2]

/-! ## Transfers -/

/-- The word pushed at an instant: `s_tvalid && s_tready` at an `s_clk` edge out of reset. -/
def pushed (s : State width addrWidth) (t : Tick width addrWidth) : List (BitVec width) :=
  if t.sClk && !t.sRst && (t.sTvalid && sTready s) then [t.sTdata] else []

/-- The word popped at an instant: `m_tvalid && m_tready` at an `m_clk` edge out of reset. -/
def popped (s : State width addrWidth) (t : Tick width addrWidth) : List (BitVec width) :=
  if t.mClk && !t.mRst && (t.mTready && mTvalid s) then [mTdata s] else []

/-- No reset is asserted at the instant. -/
def NoReset (t : Tick width addrWidth) : Prop :=
  t.sRst = false ∧ t.mRst = false

end AxisAsyncFifo
end Fpga
end Sdr
