import Sdr.Lib.Machine
import Sdr.Lib.GrayCode
import Sdr.Lib.Struct
import Sdr.Lib.Blocks
import Sdr.Lib.Boxcar
import Sdr.Lib.FixedPoint
import Sdr.Lib.Pipeline
import Sdr.Lib.Cordic
import Sdr.Lib.CordicAngle
import Sdr.Lib.Dict
import Sdr.Lib.TogglePulse
import Sdr.Lib.SplitCounter
import Sdr.Lib.CString
import Sdr.Lib.CBuffer
import Sdr.Lib.PyValue
import Sdr.Lib.PyJson
import Sdr.Protocol.Packets
import Sdr.Protocol.HeaderCodec
import Sdr.Protocol.Control
import Sdr.Fpga.AxisAsyncFifo
import Sdr.Fpga.FifoLossless
import Sdr.Fpga.IqPacketizer
import Sdr.Fpga.IqFraming
import Sdr.Fpga.IqHeader
import Sdr.Fpga.IqLink
import Sdr.Fpga.AdcFrontend
import Sdr.Fpga.DcRemoval
import Sdr.Fpga.Nco
import Sdr.Fpga.CicDecimator
import Sdr.Fpga.CicFilter
import Sdr.Fpga.DdcCore
import Sdr.Fpga.Mixing
import Sdr.Fpga.CordicConvergence
import Sdr.Fpga.OscillatorAccuracy
import Sdr.Fpga.DdcOutput
import Sdr.Fpga.DdcChain
import Sdr.Fpga.OfferedWords
import Sdr.Fpga.SdrPlCore
import Sdr.Fpga.LevelMonitor
import Sdr.Fpga.EventFlags
import Sdr.Fpga.PacketTimestamps
import Sdr.Fpga.CsrRegfile
import Sdr.Fpga.AxiLiteSlave
import Sdr.Fpga.AxiTransactions
import Sdr.Fpga.ConfigSync
import Sdr.Fpga.ConfigCrossing
import Sdr.Fpga.SdrTop
import Sdr.Fpga.StreamStart
import Sdr.Fpga.ControlReset
import Sdr.Bridge.SdrRegs
import Sdr.Bridge.SdrControl
import Sdr.Bridge.Programming
import Sdr.Bridge.StreamAgreement
import Sdr.Bridge.ControlPath
import Sdr.Bridge.ReachableControl
import Sdr.Bridge.RxValidation
import Sdr.Bridge.ScanLine
import Sdr.Bridge.RequestLine
import Sdr.Bridge.ControlMemory
import Sdr.Bridge.MemoryRefinement
import Sdr.Bridge.TcpControl
import Sdr.Bridge.LineFraming
import Sdr.Bridge.BufferSafety
import Sdr.Bridge.IqDma
import Sdr.Bridge.StatusRead
import Sdr.Bridge.StatusBudget
import Sdr.Simulator.StreamState
import Sdr.Simulator.PsdSender
import Sdr.Simulator.Server
import Sdr.Simulator.Device
import Sdr.Simulator.Refusals
import Sdr.Simulator.TransmitLoop
import Sdr.Simulator.Session
import Sdr.Simulator.Numbering
import Sdr.Simulator.Ownership
import Sdr.Simulator.RxParity
import Sdr.Backend.AppState
import Sdr.Backend.AudioFraming
import Sdr.Backend.LocalSpectrum
import Sdr.Backend.Broadcast
import Sdr.Backend.WebSocketQueue
import Sdr.Backend.Retuning
import Sdr.Backend.LossAccounting
import Sdr.Backend.IqDelivery
import Sdr.Backend.PsdIngest
import Sdr.Backend.PsdPlacement
import Sdr.Backend.DeviceClient
import Sdr.Backend.ClientResponses
import Sdr.Backend.ClientConnections
import Sdr.Backend.PsdReassembler
import Sdr.Backend.PsdLossy
import Sdr.Backend.PsdEpochs
import Sdr.Backend.PsdOrder
import Sdr.Backend.Runtime
import Sdr.Backend.PsdStop
import Sdr.Frontend.ZoomRange
import Sdr.Frontend.PcmPlayer
import Sdr.Simulator.StreamDelivery
import Sdr.Fpga.ClearCounts
import Sdr.Fpga.PacketProgress
import Sdr.Fpga.LinkProgress
import Sdr.Fpga.SpiProgress
import Sdr.Cosim.Server
import Sdr.Cosim.IqDatagrams
import Sdr.Cosim.PsdFrames
