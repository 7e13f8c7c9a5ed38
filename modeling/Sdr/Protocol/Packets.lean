import Sdr.Lib.Struct

/-!
# Packets — the binary UDP headers

Model of `common/protocol/packets.py`.  Python integers are unbounded, so every header field is an
`Int`; what makes a header a packet is `validate`, which both `pack` and `unpack` call, and the
widths of the `struct` format, which only `pack` enforces.

The IQ and the PSD header have the same checks with different constants: `validateFields` is the
shared check, `PacketKind` the constants, and each header's `validate` is the shared check on its
own fields.
-/

namespace Sdr
namespace Protocol

open Lib Lib.Struct

/-! ## Constants -/

def SDR_PROTOCOL_VERSION : Int := 1

def SDR_IQ_MAGIC : Int := 0x51494453

def SDR_PSD_MAGIC : Int := 0x53504453

def SDR_FRAME_IQ : Int := 1

def SDR_FRAME_PSD : Int := 2

def SDR_SAMPLE_SC16_LE : Int := 1

def SDR_PSD_I16_DBFS_Q8 : Int := 1

def SDR_IQ_FLAG_ADC_OR : Int := 1

def SDR_IQ_FLAG_FIFO_OVERFLOW : Int := 2

def SDR_IQ_FLAG_DISCONTINUITY : Int := 4

def SDR_IQ_FLAG_CONFIG_CHANGED : Int := 8

def SDR_PSD_FLAG_CONFIG_CHANGED : Int := 2

/-- `"<IHHHHIQQIIHHHhIIQ"`. -/
def iqStruct : List Code :=
  [.I, .H, .H, .H, .H, .I, .Q, .Q, .I, .I, .H, .H, .H, .h, .I, .I, .Q]

/-- `"<IHHHHIQQQIHHHHHHHHIQ"`. -/
def psdStruct : List Code :=
  [.I, .H, .H, .H, .H, .I, .Q, .Q, .Q, .I, .H, .H, .H, .H, .H, .H, .H, .H, .I, .Q]

def IQ_HEADER_SIZE : Nat := size iqStruct

def PSD_HEADER_SIZE : Nat := size psdStruct

example : IQ_HEADER_SIZE = 64 ∧ PSD_HEADER_SIZE = 72 := by decide

/-! ## Checks shared by the two headers -/

/-- What the checks of a header compare with, and how its errors name it. -/
structure PacketKind where
  label : String
  magic : Int
  headerSize : Nat
  frameType : Int
  sampleFormat : Int
  unitName : String
  unitBytes : Int

def iqKind : PacketKind where
  label := "IQ"
  magic := SDR_IQ_MAGIC
  headerSize := IQ_HEADER_SIZE
  frameType := SDR_FRAME_IQ
  sampleFormat := SDR_SAMPLE_SC16_LE
  unitName := "sample_count"
  unitBytes := 4

def psdKind : PacketKind where
  label := "PSD"
  magic := SDR_PSD_MAGIC
  headerSize := PSD_HEADER_SIZE
  frameType := SDR_FRAME_PSD
  sampleFormat := SDR_PSD_I16_DBFS_Q8
  unitName := "bin_count"
  unitBytes := 2

inductive PacketError
  | tooShort (length : Nat)
  | badMagic (magic : Int)
  | unsupportedVersion (version : Int)
  | badHeaderLength (headerLen : Int)
  | badFrameType (frameType : Int)
  | unsupportedSampleFormat (sampleFormat : Int)
  | badPayloadBytes (payloadBytes expectedPayload : Int)
  deriving DecidableEq, Repr

/-- The number as the format `08x` prints it. -/
def hex08 (v : Int) : String :=
  -- The sign counts into the width of eight.
  let digits := Nat.toDigits 16 v.natAbs
  if v < 0 then
    String.ofList ('-' :: (List.replicate (7 - digits.length) '0' ++ digits))
  else
    String.ofList (List.replicate (8 - digits.length) '0' ++ digits)

def PacketError.message (k : PacketKind) : PacketError → String
  | .tooShort length => s!"{k.label} packet too short for header: {length} bytes"
  | .badMagic magic => s!"bad {k.label} magic 0x{hex08 magic}"
  | .unsupportedVersion version => s!"unsupported {k.label} protocol version {version}"
  | .badHeaderLength headerLen => s!"bad {k.label} header length {headerLen}"
  | .badFrameType frameType => s!"bad {k.label} frame type {frameType}"
  | .unsupportedSampleFormat sampleFormat =>
      s!"unsupported {k.label} sample format {sampleFormat}"
  | .badPayloadBytes payloadBytes expectedPayload =>
      s!"{k.label} payload_bytes {payloadBytes} != {k.unitName} * {k.unitBytes} {expectedPayload}"

def validateFields (k : PacketKind)
    (magic version headerLen frameType sampleFormat count payloadBytes : Int) :
    Except PacketError Unit :=
  if magic ≠ k.magic then
    .error (.badMagic magic)
  else if version ≠ SDR_PROTOCOL_VERSION then
    .error (.unsupportedVersion version)
  else if headerLen ≠ k.headerSize then
    .error (.badHeaderLength headerLen)
  else if frameType ≠ k.frameType then
    .error (.badFrameType frameType)
  else if sampleFormat ≠ k.sampleFormat then
    .error (.unsupportedSampleFormat sampleFormat)
  else if payloadBytes ≠ count * k.unitBytes then
    .error (.badPayloadBytes payloadBytes (count * k.unitBytes))
  else
    .ok ()

theorem validateFields_eq_ok {k : PacketKind}
    {magic version headerLen frameType sampleFormat count payloadBytes : Int} :
    validateFields k magic version headerLen frameType sampleFormat count payloadBytes = .ok () ↔
      magic = k.magic ∧ version = SDR_PROTOCOL_VERSION ∧ headerLen = k.headerSize ∧
        frameType = k.frameType ∧ sampleFormat = k.sampleFormat ∧
        payloadBytes = count * k.unitBytes := by
  unfold validateFields
  split_ifs <;> simp_all

/-- `pack` raises a `PacketError` from `validate`, or `struct.error` when a value does not fit. -/
inductive PackError
  | packet (error : PacketError)
  | structError
  deriving DecidableEq, Repr

/-! ## IQ header -/

structure SdrIqHeader where
  magic : Int := SDR_IQ_MAGIC
  version : Int := SDR_PROTOCOL_VERSION
  headerLen : Int := IQ_HEADER_SIZE
  frameType : Int := SDR_FRAME_IQ
  streamId : Int := 0
  seq : Int := 0
  adcTimestamp : Int := 0
  frequencyHz : Int := 0
  iqSampleRateHz : Int := 250000
  bandwidthHz : Int := 12000
  sampleFormat : Int := SDR_SAMPLE_SC16_LE
  sampleCount : Int := 0
  flags : Int := 0
  gainDbQ8 : Int := 0
  decimation : Int := 1000
  payloadBytes : Int := 0
  reserved0 : Int := 0
  deriving DecidableEq, Repr

namespace SdrIqHeader

/-- The fields in the order of the format. -/
def values (h : SdrIqHeader) : List Int :=
  [h.magic, h.version, h.headerLen, h.frameType, h.streamId, h.seq, h.adcTimestamp, h.frequencyHz,
    h.iqSampleRateHz, h.bandwidthHz, h.sampleFormat, h.sampleCount, h.flags, h.gainDbQ8,
    h.decimation, h.payloadBytes, h.reserved0]

/-- `cls(*values)`. -/
def ofValues (v : List Int) : SdrIqHeader where
  magic := v.getD 0 0
  version := v.getD 1 0
  headerLen := v.getD 2 0
  frameType := v.getD 3 0
  streamId := v.getD 4 0
  seq := v.getD 5 0
  adcTimestamp := v.getD 6 0
  frequencyHz := v.getD 7 0
  iqSampleRateHz := v.getD 8 0
  bandwidthHz := v.getD 9 0
  sampleFormat := v.getD 10 0
  sampleCount := v.getD 11 0
  flags := v.getD 12 0
  gainDbQ8 := v.getD 13 0
  decimation := v.getD 14 0
  payloadBytes := v.getD 15 0
  reserved0 := v.getD 16 0

@[simp] theorem ofValues_values (h : SdrIqHeader) : ofValues h.values = h := rfl

def validate (h : SdrIqHeader) : Except PacketError Unit :=
  validateFields iqKind h.magic h.version h.headerLen h.frameType h.sampleFormat h.sampleCount
    h.payloadBytes

def pack (h : SdrIqHeader) : Except PackError (List Byte) :=
  match h.validate with
  | .error e => .error (.packet e)
  | .ok () =>
      match Struct.pack iqStruct h.values with
      | some bytes => .ok bytes
      | none => .error .structError

def unpack (data : List Byte) : Except PacketError SdrIqHeader :=
  if data.length < IQ_HEADER_SIZE then
    .error (.tooShort data.length)
  else
    -- What follows the header is the caller's payload and is not looked at.
    let header := ofValues (Struct.unpack iqStruct data)
    match header.validate with
    | .error e => .error e
    | .ok () => .ok header

def nextTimestampDelta (h : SdrIqHeader) : Int :=
  h.decimation * h.sampleCount

end SdrIqHeader

/-! ## PSD header -/

structure SdrPsdHeader where
  magic : Int := SDR_PSD_MAGIC
  version : Int := SDR_PROTOCOL_VERSION
  headerLen : Int := PSD_HEADER_SIZE
  frameType : Int := SDR_FRAME_PSD
  psdId : Int := 0
  frameSeq : Int := 0
  adcTimestamp : Int := 0
  startFrequencyHz : Int := 0
  binSpacingMillihz : Int := 0
  fftSize : Int := 0
  totalBins : Int := 0
  segmentIndex : Int := 0
  segmentCount : Int := 0
  binStart : Int := 0
  binCount : Int := 0
  sampleFormat : Int := SDR_PSD_I16_DBFS_Q8
  flags : Int := 0
  averagingCount : Int := 1
  payloadBytes : Int := 0
  stopFrequencyHz : Int := 0
  deriving DecidableEq, Repr

namespace SdrPsdHeader

/-- The fields in the order of the format. -/
def values (h : SdrPsdHeader) : List Int :=
  [h.magic, h.version, h.headerLen, h.frameType, h.psdId, h.frameSeq, h.adcTimestamp,
    h.startFrequencyHz, h.binSpacingMillihz, h.fftSize, h.totalBins, h.segmentIndex, h.segmentCount,
    h.binStart, h.binCount, h.sampleFormat, h.flags, h.averagingCount, h.payloadBytes,
    h.stopFrequencyHz]

/-- `cls(*values)`. -/
def ofValues (v : List Int) : SdrPsdHeader where
  magic := v.getD 0 0
  version := v.getD 1 0
  headerLen := v.getD 2 0
  frameType := v.getD 3 0
  psdId := v.getD 4 0
  frameSeq := v.getD 5 0
  adcTimestamp := v.getD 6 0
  startFrequencyHz := v.getD 7 0
  binSpacingMillihz := v.getD 8 0
  fftSize := v.getD 9 0
  totalBins := v.getD 10 0
  segmentIndex := v.getD 11 0
  segmentCount := v.getD 12 0
  binStart := v.getD 13 0
  binCount := v.getD 14 0
  sampleFormat := v.getD 15 0
  flags := v.getD 16 0
  averagingCount := v.getD 17 0
  payloadBytes := v.getD 18 0
  stopFrequencyHz := v.getD 19 0

@[simp] theorem ofValues_values (h : SdrPsdHeader) : ofValues h.values = h := rfl

def validate (h : SdrPsdHeader) : Except PacketError Unit :=
  validateFields psdKind h.magic h.version h.headerLen h.frameType h.sampleFormat h.binCount
    h.payloadBytes

def pack (h : SdrPsdHeader) : Except PackError (List Byte) :=
  match h.validate with
  | .error e => .error (.packet e)
  | .ok () =>
      match Struct.pack psdStruct h.values with
      | some bytes => .ok bytes
      | none => .error .structError

def unpack (data : List Byte) : Except PacketError SdrPsdHeader :=
  if data.length < PSD_HEADER_SIZE then
    .error (.tooShort data.length)
  else
    let header := ofValues (Struct.unpack psdStruct data)
    match header.validate with
    | .error e => .error e
    | .ok () => .ok header

end SdrPsdHeader

/-! ## What a packed header is read back as -/

theorem SdrIqHeader.pack_eq_ok {h : SdrIqHeader} {bytes : List Byte} :
    h.pack = .ok bytes ↔ h.validate = .ok () ∧ Struct.pack iqStruct h.values = some bytes := by
  unfold SdrIqHeader.pack
  cases hv : h.validate with
  | error e =>
      simp
  | ok u =>
      cases hp : Struct.pack iqStruct h.values with
      | none =>
          simp
      | some b =>
          simp

theorem SdrPsdHeader.pack_eq_ok {h : SdrPsdHeader} {bytes : List Byte} :
    h.pack = .ok bytes ↔ h.validate = .ok () ∧ Struct.pack psdStruct h.values = some bytes := by
  unfold SdrPsdHeader.pack
  cases hv : h.validate with
  | error e =>
      simp
  | ok u =>
      cases hp : Struct.pack psdStruct h.values with
      | none =>
          simp
      | some b =>
          simp

theorem SdrIqHeader.unpack_pack {h : SdrIqHeader} {bytes : List Byte} (rest : List Byte)
    (hpack : h.pack = .ok bytes) : SdrIqHeader.unpack (bytes ++ rest) = .ok h := by
  rcases SdrIqHeader.pack_eq_ok.1 hpack with ⟨hvalid, hbytes⟩
  have hlen : bytes.length = IQ_HEADER_SIZE := Struct.length_of_pack hbytes
  -- A packed header is already long enough, whatever follows.
  have hnot : ¬(bytes ++ rest).length < IQ_HEADER_SIZE := by
    rw [List.length_append]
    omega
  rw [SdrIqHeader.unpack, if_neg hnot, Struct.unpack_pack rest hbytes]
  simp [hvalid]

theorem SdrPsdHeader.unpack_pack {h : SdrPsdHeader} {bytes : List Byte} (rest : List Byte)
    (hpack : h.pack = .ok bytes) : SdrPsdHeader.unpack (bytes ++ rest) = .ok h := by
  rcases SdrPsdHeader.pack_eq_ok.1 hpack with ⟨hvalid, hbytes⟩
  have hlen : bytes.length = PSD_HEADER_SIZE := Struct.length_of_pack hbytes
  have hnot : ¬(bytes ++ rest).length < PSD_HEADER_SIZE := by
    rw [List.length_append]
    omega
  rw [SdrPsdHeader.unpack, if_neg hnot, Struct.unpack_pack rest hbytes]
  simp [hvalid]

theorem SdrPsdHeader.length_of_pack {h : SdrPsdHeader} {bytes : List Byte}
    (hpack : h.pack = .ok bytes) : bytes.length = PSD_HEADER_SIZE :=
  Struct.length_of_pack (SdrPsdHeader.pack_eq_ok.1 hpack).2

end Protocol
end Sdr
