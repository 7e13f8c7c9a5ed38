import Sdr.Lib.Machine

/-!
# SpiWire — what a serial peripheral receives

The receiving end of a three-wire serial bus with the clock idling low: while it is selected, it takes
the level of the data line at every rising edge of the clock, and being deselected ends the frame.  The
line has levels of any type, so that a released line can be told from a driven one.
-/

namespace Sdr
namespace Lib

/-- The levels of the three wires; `cs` is low while the peripheral is selected. -/
structure SpiPins (β : Type) where
  cs : Bool
  sclk : Bool
  io : β
  deriving DecidableEq

/-- The levels seen last, and the levels taken in this frame. -/
structure SpiReceiver (β : Type) where
  cs : Bool
  sclk : Bool
  bits : List β
  deriving DecidableEq

namespace SpiReceiver

variable {β : Type} {r : SpiReceiver β} {p : SpiPins β}

/-- Not selected. -/
def resting : SpiReceiver β where
  cs := true
  sclk := false
  bits := []

def rises (r : SpiReceiver β) (p : SpiPins β) : Bool :=
  !r.cs && !r.sclk && p.sclk

def step (r : SpiReceiver β) (p : SpiPins β) : SpiReceiver β where
  cs := p.cs
  sclk := p.sclk
  bits :=
    if p.cs then
      []
    else if r.rises p then
      r.bits ++ [p.io]
    else
      r.bits

/-- The frame that ends here. -/
def frame (r : SpiReceiver β) (p : SpiPins β) : List (List β) :=
  if p.cs && !r.cs then [r.bits] else []

@[simp] theorem step_cs (r : SpiReceiver β) (p : SpiPins β) : (r.step p).cs = p.cs := rfl

@[simp] theorem step_sclk (r : SpiReceiver β) (p : SpiPins β) : (r.step p).sclk = p.sclk := rfl

theorem step_bits_of_rise (hcs : p.cs = false) (hr : r.cs = false) (hlow : r.sclk = false)
    (hhigh : p.sclk = true) : (r.step p).bits = r.bits ++ [p.io] := by
  simp [step, rises, hcs, hr, hlow, hhigh]

/-- A clock that does not rise leaves the frame as it is. -/
theorem step_bits_of_steady (hcs : p.cs = false) (hsteady : r.sclk = true ∨ p.sclk = false) :
    (r.step p).bits = r.bits := by
  rcases hsteady with h | h <;> simp [step, rises, hcs, h]

theorem step_bits_of_deselected (hcs : p.cs = true) : (r.step p).bits = [] := by
  simp [step, hcs]

theorem frame_of_selected (hcs : p.cs = false) : r.frame p = [] := by
  simp [frame, hcs]

theorem frame_of_resting (hr : r.cs = true) : r.frame p = [] := by
  simp [frame, hr]

theorem frame_of_deselected (hcs : p.cs = true) (hr : r.cs = false) : r.frame p = [r.bits] := by
  simp [frame, hcs, hr]

end SpiReceiver

end Lib
end Sdr
