import Sdr.Lib.TogglePulse

/-!
# ConfigSync — a configuration bus handed to another clock domain

Model of `fpga/rtl/util/config_sync.v`.  The source side holds the bus and flips a toggle; the
destination side passes the toggle through three flops and loads the held bus when the last two
differ.  The two `always` blocks have clocks of their own, so each is a function of its own:
`srcEdge` and `dstEdge`.  `Tracks` reads the four toggle flops as the counts of `Lib.Stages`.
-/

namespace Sdr
namespace Fpga
namespace ConfigSync

open Lib

variable {width : Nat}

structure State (width : Nat) where
  srcHold : BitVec width
  srcToggle : Bool
  dstMeta : Bool
  dstSync : Bool
  dstSyncD : Bool
  dstData : BitVec width

def resetState (width : Nat) : State width where
  srcHold := 0
  srcToggle := false
  dstMeta := false
  dstSync := false
  dstSyncD := false
  dstData := 0

def dstUpdate (s : State width) : Bool :=
  s.dstSync ^^ s.dstSyncD

/-- `always @(posedge src_clk)`. -/
def srcEdge (s : State width) (srcRst : Bool) (srcData : BitVec width) (srcUpdate : Bool) :
    State width :=
  if srcRst then
    { s with srcHold := 0, srcToggle := false }
  else if srcUpdate then
    { s with srcHold := srcData, srcToggle := !s.srcToggle }
  else
    s

/-- `always @(posedge dst_clk)`. -/
def dstEdge (s : State width) (dstRst : Bool) : State width :=
  if dstRst then
    { s with dstMeta := false, dstSync := false, dstSyncD := false, dstData := 0 }
  else
    { s with
      dstMeta := s.srcToggle
      dstSync := s.dstMeta
      dstSyncD := s.dstSync
      dstData := if dstUpdate s then s.srcHold else s.dstData }

/-! ## The toggle as a count -/

/-- Each toggle flop is the parity of the number of updates it has seen. -/
structure Tracks (s : State width) (p : Stages) : Prop where
  toggle : s.srcToggle = Nat.bodd p.sent
  first : s.dstMeta = Nat.bodd p.seen1
  second : s.dstSync = Nat.bodd p.seen2
  third : s.dstSyncD = Nat.bodd p.seen3

theorem tracks_resetState : Tracks (resetState width) Stages.zero := by
  constructor <;> rfl

theorem Tracks.dstUpdate_eq {s : State width} {p : Stages} (h : Tracks s p) :
    dstUpdate s = p.pulse := by
  rw [dstUpdate, h.second, h.third, Stages.pulse]

theorem Tracks.srcEdge_update {s : State width} {p : Stages} (h : Tracks s p)
    (hseen : p.seen1 = p.sent) (srcData : BitVec width) :
    Tracks (srcEdge s false srcData true) (p.send hseen) where
  toggle := by simp [srcEdge, Stages.send, h.toggle, Nat.bodd_succ]
  first := h.first
  second := h.second
  third := h.third

theorem Tracks.dstEdge {s : State width} {p : Stages} (h : Tracks s p) :
    Tracks (dstEdge s false) p.sample where
  toggle := h.toggle
  first := h.toggle
  second := h.first
  third := h.second

end ConfigSync
end Fpga
end Sdr
