import Sdr.Fpga.SpiMaster

/-!
# SpiConfig — the configuration of the ADC over its serial port

Model of `fpga/rtl/vendor/acfl3432/spi_ctrl.v` and `lut_config.v` as
`fpga/rtl/adc/acfl3432_spi_config.v` joins them.  `lut_config` presents one word after the other, first
those of its table and then what it is asked to write, and moves on with each `done`; `spi_ctrl` gives
the word it holds to the master and waits for the acknowledgement.

A word is an address of 16 bits and a data byte.  `WR_RD` is where `spi_ctrl` commits to one.
-/

namespace Sdr
namespace Fpga

/-! ## `spi_ctrl` -/

namespace SpiCtrl

/-- `state`. -/
inductive Phase
  | idle
  | wrRd
  | wrAddr
  | wrData
  | rdAddr
  | rdData
  | done
  | wait
  deriving DecidableEq

structure State where
  addrR : BitVec 16
  dataR : BitVec 8
  valid : Bool
  ioEn : Bool
  wrReq : Bool
  rdReq : Bool
  waitCnt : BitVec 3
  dataIn : BitVec 8
  dataAddr : BitVec 16
  done : Bool
  state : Phase
  deriving DecidableEq

def resetState : State where
  addrR := 0
  dataR := 0
  valid := false
  ioEn := false
  wrReq := false
  rdReq := false
  waitCnt := 0
  dataIn := 0
  dataAddr := 0
  done := false
  state := .idle

structure Ports where
  addr : BitVec 16
  data : BitVec 8
  cmdValid : Bool
  wrRdEn : Bool
  ack : Bool
  rdAck : Bool

/-- The word that goes to the master. -/
def commit (s : State) : State :=
  { s with ioEn := true, dataAddr := s.addrR, dataIn := s.dataR }

/-- The block with `case(state)`; `GO` is tied to one. -/
def sequencer (s : State) (p : Ports) : State :=
  match s.state with
  | .idle => { s with state := if s.valid then .wrRd else .idle }
  | .wrRd =>
      if p.wrRdEn then
        { commit s with wrReq := true, state := .wrAddr }
      else
        { commit s with rdReq := true, state := .rdAddr }
  | .wrAddr => { s with state := .wrData }
  | .wrData => if p.ack then { s with wrReq := false, state := .done } else s
  | .rdAddr => if p.rdAck then { s with state := .rdData } else s
  | .rdData =>
      let s := { s with ioEn := false }
      if p.ack then { s with rdReq := false, state := .done } else s
  | .done => { s with done := true, ioEn := true, state := .wait }
  | .wait =>
      if s.waitCnt = 2 then
        { s with done := false, state := .idle, waitCnt := 0 }
      else
        { s with done := false, waitCnt := s.waitCnt + 1 }

def step (s : State) (p : Ports) : State :=
  { sequencer s p with
    addrR := if p.cmdValid then p.addr else s.addrR
    dataR := if p.cmdValid then p.data else s.dataR
    valid :=
      if p.cmdValid then
        true
      else if s.done then
        false
      else
        s.valid }

end SpiCtrl

/-! ## `lut_config` -/

namespace LutConfig

structure State where
  confEnReg : Bool
  state : BitVec 10
  confState : BitVec 4
  wrRdEn : Bool
  valid : Bool
  lutData : BitVec 25
  deriving DecidableEq

def resetState : State where
  confEnReg := false
  state := 0
  confState := 0
  wrRdEn := true
  valid := false
  lutData := 0x0ffffff

/-- The register writes of the table. -/
def table : List (BitVec 24) :=
  [0x001405, 0x001785, 0x000b00, 0x00180f, 0x00ff01]

/-- The write that makes the ADC take over what has been written before. -/
def transfer : BitVec 24 :=
  0x00ff01

/-- The block with `case(conf_state)`. -/
def configure (s : State) (lutIndex : Bool) (regConf : BitVec 32) : State :=
  if s.confState = 0 then
    { s with confState := s.confState + 1 }
  else if s.confState = 1 then
    match table[s.state.toNat]? with
    | some word => { s with lutData := word.setWidth 25, valid := true }
    | none =>
        if s.state = 5 then
          { s with confState := s.confState + 1, valid := false }
        else
          { s with lutData := 0x0ffffff }
  else if s.confState = 2 then
    if s.confEnReg then
      { s with
        lutData := (regConf.setWidth 24).setWidth 25
        valid := true
        confState := s.confState + 1 }
    else
      { s with valid := false }
  else if s.confState = 3 then
    if lutIndex then
      { s with lutData := transfer.setWidth 25, valid := true, confState := s.confState + 1 }
    else
      s
  else if s.confState = 4 then
    { s with valid := false, confState := if lutIndex then 2 else s.confState }
  else
    { s with confState := 0 }

def step (s : State) (lutIndex confEn : Bool) (regConf : BitVec 32) : State :=
  { configure s lutIndex regConf with
    confEnReg := confEn
    state := if lutIndex then s.state + 1 else s.state }

end LutConfig

/-! ## The wiring -/

namespace SpiConfig

open Lib

structure State where
  lut : LutConfig.State
  ctrl : SpiCtrl.State
  master : SpiMaster.State
  deriving DecidableEq

def resetState : State where
  lut := LutConfig.resetState
  ctrl := SpiCtrl.resetState
  master := SpiMaster.resetState

/-- One cycle out of reset; `spiIo` is the level the other side gives the line while it is released. -/
structure Inputs where
  confEn : Bool
  regConf : BitVec 32
  spiIo : Bool

/-- `SPI_IO`: driven while `io_en` is set. -/
def io (s : State) : Option Bool :=
  if s.ctrl.ioEn then some s.master.mosi else none

def ctrlPorts (s : State) : SpiCtrl.Ports where
  addr := s.lut.lutData.extractLsb' 8 16
  data := s.lut.lutData.extractLsb' 0 8
  cmdValid := s.lut.valid
  wrRdEn := s.lut.wrRdEn
  ack := s.master.ack
  rdAck := SpiMaster.rdAck s.master

def masterPorts (s : State) (i : Inputs) : SpiMaster.Ports where
  wrReq := s.ctrl.wrReq
  rdReq := s.ctrl.rdReq
  dataAddr := s.ctrl.dataAddr
  dataIn := s.ctrl.dataIn
  miso := (io s).getD i.spiIo

def step (s : State) (i : Inputs) : State where
  lut := LutConfig.step s.lut s.ctrl.done i.confEn i.regConf
  ctrl := SpiCtrl.step s.ctrl (ctrlPorts s)
  master := SpiMaster.step s.master (masterPorts s i)

def pins (s : State) : SpiPins (Option Bool) where
  cs := s.master.cs
  sclk := s.master.sclk
  io := io s

/-! ## What a run shows -/

/-- The word that `spi_ctrl` commits to in this cycle. -/
def committed (s : State) (_ : Inputs) : List (BitVec 24) :=
  if s.ctrl.state = .wrRd then [s.ctrl.addrR ++ s.ctrl.dataR] else []

/-- The word of a request that `lut_config` takes. -/
def requested (s : State) (i : Inputs) : List (BitVec 24) :=
  if s.lut.confState = 2 && s.lut.confEnReg then [i.regConf.setWidth 24] else []

/-- The ADC at the other end of the wires. -/
structure Bus where
  fpga : State
  adc : SpiReceiver (Option Bool)

def Bus.start : Bus where
  fpga := resetState
  adc := SpiReceiver.resting

namespace Bus

def step (b : Bus) (i : Inputs) : Bus where
  fpga := SpiConfig.step b.fpga i
  adc := b.adc.step (pins (SpiConfig.step b.fpga i))

/-- The frame that the ADC has received. -/
def received (b : Bus) (i : Inputs) : List (List (Option Bool)) :=
  b.adc.frame (pins (SpiConfig.step b.fpga i))

def commits (b : Bus) (i : Inputs) : List (BitVec 24) :=
  committed b.fpga i

end Bus

/-- A word on the wire, most significant bit first, driven throughout. -/
def wireBits (w : BitVec 24) : List (Option Bool) :=
  (List.range 24).map fun k => some (w.getMsbD k)

end SpiConfig

end Fpga
end Sdr
