import Mathlib.Tactic.IntervalCases
import Sdr.Protocol.Packets

/-!
# HeaderCodec — the binary headers in both directions

`pack` and `unpack` of `common/protocol/packets.py` as inverses of each other.  From the header's
side, a header that passes `validate` and fits the widths of its format is packed and read back as
it was.  From the bytes' side, `IqBytes` and `PsdBytes` say at which offsets a received byte string
has to hold which numbers; they are what `unpack` accepts, and an accepted header packs to the bytes
it was read from, whatever the other fields hold.
-/

namespace Sdr
namespace Protocol

open Lib Lib.Struct

/-! ## Fields of a received byte string -/

/-- The unsigned number of `width` bytes at `offset`. -/
def readLe (d : List Byte) (offset width : Nat) : Nat :=
  ofBytes (bytesAt d offset width)

/-- A byte string that starts with an IQ header. -/
structure IqBytes (d : List Byte) : Prop where
  length_le : 64 ≤ d.length
  magic : readLe d 0 4 = 0x51494453
  version : readLe d 4 2 = 1
  headerLen : readLe d 6 2 = 64
  frameType : readLe d 8 2 = 1
  sampleFormat : readLe d 40 2 = 1
  payloadBytes : readLe d 52 4 = 4 * readLe d 42 2

/-- A byte string that starts with a PSD header. -/
structure PsdBytes (d : List Byte) : Prop where
  length_le : 72 ≤ d.length
  magic : readLe d 0 4 = 0x53504453
  version : readLe d 4 2 = 1
  headerLen : readLe d 6 2 = 72
  frameType : readLe d 8 2 = 2
  sampleFormat : readLe d 54 2 = 1
  payloadBytes : readLe d 60 4 = 2 * readLe d 52 2

/-- An unsigned field of a record, by its place among the codes. -/
theorem getD_unpack_unsigned (cs : List Code) (i : Nat) (c : Code) (d : List Byte)
    (hc : cs[i]? = some c) (hs : c.signed = false) :
    (Struct.unpack cs d).getD i 0 = readLe d (size (cs.take i)) c.bytes := by
  rw [getD_unpack hc, Code.decode_unsigned hs, readLe]

/-- Reading a header is a check of the length and a check of the fields. -/
theorem readChecked_eq_ok {α : Type} {size : Nat} {d : List Byte} {header h : α}
    {validate : α → Except PacketError Unit} :
    (if d.length < size then
        .error (.tooShort d.length)
      else
        match validate header with
        | .error e => .error e
        | .ok () => .ok header) = (.ok h : Except PacketError α) ↔
      size ≤ d.length ∧ h = header ∧ validate h = .ok () := by
  by_cases hlen : d.length < size
  · simp [hlen, Nat.not_le.2 hlen]
  · rw [if_neg hlen]
    cases hv : validate header with
    | error e =>
        constructor
        · intro h
          cases h
        · rintro ⟨_, rfl, hok⟩
          rw [hv] at hok
          cases hok
    | ok u =>
        constructor
        · intro h
          cases h
          exact ⟨Nat.not_lt.1 hlen, rfl, hv⟩
        · rintro ⟨_, rfl, _⟩
          rfl

/-! ## IQ header -/

namespace SdrIqHeader

theorem values_ofValues {v : List Int} (hv : v.length = 17) : (ofValues v).values = v := by
  refine List.ext_getElem (by simp [values, hv]) ?_
  intro i hi _
  have hlt : i < 17 := hi
  interval_cases i <;> simp [values, ofValues, List.getD_eq_getElem?_getD, hv]

theorem unpack_eq_ok {d : List Byte} {h : SdrIqHeader} :
    unpack d = .ok h ↔
      64 ≤ d.length ∧ h = ofValues (Struct.unpack iqStruct d) ∧ h.validate = .ok () :=
  readChecked_eq_ok

/-- The checks of `validate` on a header just read, as facts about the bytes. -/
theorem validate_ofValues_unpack (d : List Byte) :
    (ofValues (Struct.unpack iqStruct d)).validate = .ok () ↔
      readLe d 0 4 = 0x51494453 ∧ readLe d 4 2 = 1 ∧ readLe d 6 2 = 64 ∧ readLe d 8 2 = 1 ∧
        readLe d 40 2 = 1 ∧ readLe d 52 4 = 4 * readLe d 42 2 := by
  have hmagic : (ofValues (Struct.unpack iqStruct d)).magic = readLe d 0 4 :=
    getD_unpack_unsigned iqStruct 0 .I d rfl rfl
  have hversion : (ofValues (Struct.unpack iqStruct d)).version = readLe d 4 2 :=
    getD_unpack_unsigned iqStruct 1 .H d rfl rfl
  have hheaderLen : (ofValues (Struct.unpack iqStruct d)).headerLen = readLe d 6 2 :=
    getD_unpack_unsigned iqStruct 2 .H d rfl rfl
  have hframeType : (ofValues (Struct.unpack iqStruct d)).frameType = readLe d 8 2 :=
    getD_unpack_unsigned iqStruct 3 .H d rfl rfl
  have hsampleFormat : (ofValues (Struct.unpack iqStruct d)).sampleFormat = readLe d 40 2 :=
    getD_unpack_unsigned iqStruct 10 .H d rfl rfl
  have hsampleCount : (ofValues (Struct.unpack iqStruct d)).sampleCount = readLe d 42 2 :=
    getD_unpack_unsigned iqStruct 11 .H d rfl rfl
  have hpayloadBytes : (ofValues (Struct.unpack iqStruct d)).payloadBytes = readLe d 52 4 :=
    getD_unpack_unsigned iqStruct 15 .I d rfl rfl
  have hsize : (iqKind.headerSize : Int) = 64 := by decide
  unfold validate
  rw [validateFields_eq_ok, hmagic, hversion, hheaderLen, hframeType, hsampleFormat, hsampleCount,
    hpayloadBytes, hsize]
  simp only [iqKind, SDR_IQ_MAGIC, SDR_PROTOCOL_VERSION, SDR_FRAME_IQ, SDR_SAMPLE_SC16_LE]
  omega

theorem unpack_isOk_iff (d : List Byte) : (∃ h, unpack d = .ok h) ↔ IqBytes d := by
  constructor
  · rintro ⟨h, hh⟩
    rcases unpack_eq_ok.1 hh with ⟨hlen, rfl, hvalid⟩
    rcases (validate_ofValues_unpack d).1 hvalid with ⟨h0, h1, h2, h3, h4, h5⟩
    exact ⟨hlen, h0, h1, h2, h3, h4, h5⟩
  · rintro ⟨hlen, h0, h1, h2, h3, h4, h5⟩
    exact ⟨_, unpack_eq_ok.2
      ⟨hlen, rfl, (validate_ofValues_unpack d).2 ⟨h0, h1, h2, h3, h4, h5⟩⟩⟩

/-- A header that was accepted packs to the bytes it was read from. -/
theorem pack_of_unpack {d : List Byte} {h : SdrIqHeader} (hh : unpack d = .ok h) :
    h.pack = .ok (d.take 64) := by
  rcases unpack_eq_ok.1 hh with ⟨hlen, rfl, hvalid⟩
  refine pack_eq_ok.2 ⟨hvalid, ?_⟩
  rw [values_ofValues (length_unpack iqStruct d)]
  exact pack_unpack (by decide) hlen

/-- A valid header whose fields fit their widths is packed, and read back as it was. -/
theorem unpack_of_pack {h : SdrIqHeader} (hvalid : h.validate = .ok ())
    (hfits : List.Forall₂ Code.Fits iqStruct h.values) :
    ∃ bytes, h.pack = .ok bytes ∧ bytes.length = 64 ∧ unpack bytes = .ok h := by
  have hpack := pack_eq_ok.2 ⟨hvalid, pack_of_fits hfits⟩
  refine ⟨_, hpack, Struct.length_of_pack (pack_of_fits hfits), ?_⟩
  simpa using unpack_pack [] hpack

end SdrIqHeader

/-! ## PSD header -/

namespace SdrPsdHeader

theorem values_ofValues {v : List Int} (hv : v.length = 20) : (ofValues v).values = v := by
  refine List.ext_getElem (by simp [values, hv]) ?_
  intro i hi _
  have hlt : i < 20 := hi
  interval_cases i <;> simp [values, ofValues, List.getD_eq_getElem?_getD, hv]

theorem unpack_eq_ok {d : List Byte} {h : SdrPsdHeader} :
    unpack d = .ok h ↔
      72 ≤ d.length ∧ h = ofValues (Struct.unpack psdStruct d) ∧ h.validate = .ok () :=
  readChecked_eq_ok

theorem validate_ofValues_unpack (d : List Byte) :
    (ofValues (Struct.unpack psdStruct d)).validate = .ok () ↔
      readLe d 0 4 = 0x53504453 ∧ readLe d 4 2 = 1 ∧ readLe d 6 2 = 72 ∧ readLe d 8 2 = 2 ∧
        readLe d 54 2 = 1 ∧ readLe d 60 4 = 2 * readLe d 52 2 := by
  have hmagic : (ofValues (Struct.unpack psdStruct d)).magic = readLe d 0 4 :=
    getD_unpack_unsigned psdStruct 0 .I d rfl rfl
  have hversion : (ofValues (Struct.unpack psdStruct d)).version = readLe d 4 2 :=
    getD_unpack_unsigned psdStruct 1 .H d rfl rfl
  have hheaderLen : (ofValues (Struct.unpack psdStruct d)).headerLen = readLe d 6 2 :=
    getD_unpack_unsigned psdStruct 2 .H d rfl rfl
  have hframeType : (ofValues (Struct.unpack psdStruct d)).frameType = readLe d 8 2 :=
    getD_unpack_unsigned psdStruct 3 .H d rfl rfl
  have hbinCount : (ofValues (Struct.unpack psdStruct d)).binCount = readLe d 52 2 :=
    getD_unpack_unsigned psdStruct 14 .H d rfl rfl
  have hsampleFormat : (ofValues (Struct.unpack psdStruct d)).sampleFormat = readLe d 54 2 :=
    getD_unpack_unsigned psdStruct 15 .H d rfl rfl
  have hpayloadBytes : (ofValues (Struct.unpack psdStruct d)).payloadBytes = readLe d 60 4 :=
    getD_unpack_unsigned psdStruct 18 .I d rfl rfl
  have hsize : (psdKind.headerSize : Int) = 72 := by decide
  unfold validate
  rw [validateFields_eq_ok, hmagic, hversion, hheaderLen, hframeType, hbinCount, hsampleFormat,
    hpayloadBytes, hsize]
  simp only [psdKind, SDR_PSD_MAGIC, SDR_PROTOCOL_VERSION, SDR_FRAME_PSD, SDR_PSD_I16_DBFS_Q8]
  omega

theorem unpack_isOk_iff (d : List Byte) : (∃ h, unpack d = .ok h) ↔ PsdBytes d := by
  constructor
  · rintro ⟨h, hh⟩
    rcases unpack_eq_ok.1 hh with ⟨hlen, rfl, hvalid⟩
    rcases (validate_ofValues_unpack d).1 hvalid with ⟨h0, h1, h2, h3, h4, h5⟩
    exact ⟨hlen, h0, h1, h2, h3, h4, h5⟩
  · rintro ⟨hlen, h0, h1, h2, h3, h4, h5⟩
    exact ⟨_, unpack_eq_ok.2
      ⟨hlen, rfl, (validate_ofValues_unpack d).2 ⟨h0, h1, h2, h3, h4, h5⟩⟩⟩

theorem pack_of_unpack {d : List Byte} {h : SdrPsdHeader} (hh : unpack d = .ok h) :
    h.pack = .ok (d.take 72) := by
  rcases unpack_eq_ok.1 hh with ⟨hlen, rfl, hvalid⟩
  refine pack_eq_ok.2 ⟨hvalid, ?_⟩
  rw [values_ofValues (length_unpack psdStruct d)]
  exact pack_unpack (by decide) hlen

theorem unpack_of_pack {h : SdrPsdHeader} (hvalid : h.validate = .ok ())
    (hfits : List.Forall₂ Code.Fits psdStruct h.values) :
    ∃ bytes, h.pack = .ok bytes ∧ bytes.length = 72 ∧ unpack bytes = .ok h := by
  have hpack := pack_eq_ok.2 ⟨hvalid, pack_of_fits hfits⟩
  refine ⟨_, hpack, length_of_pack hpack, ?_⟩
  simpa using unpack_pack [] hpack

end SdrPsdHeader

/-! ## Both codecs -/

/-- `pack` and `unpack` are inverse to each other on the headers that pass `validate` and fit their
formats, and on the byte strings that start with a header. -/
theorem header_codecs_inverse :
    (∀ h : SdrIqHeader, h.validate = .ok () → List.Forall₂ Code.Fits iqStruct h.values →
        ∃ bytes, h.pack = .ok bytes ∧ bytes.length = 64 ∧ SdrIqHeader.unpack bytes = .ok h) ∧
      (∀ d, ((∃ h, SdrIqHeader.unpack d = .ok h) ↔ IqBytes d) ∧
        ∀ h, SdrIqHeader.unpack d = .ok h → h.pack = .ok (d.take 64)) ∧
      (∀ h : SdrPsdHeader, h.validate = .ok () → List.Forall₂ Code.Fits psdStruct h.values →
        ∃ bytes, h.pack = .ok bytes ∧ bytes.length = 72 ∧ SdrPsdHeader.unpack bytes = .ok h) ∧
      (∀ d, ((∃ h, SdrPsdHeader.unpack d = .ok h) ↔ PsdBytes d) ∧
        ∀ h, SdrPsdHeader.unpack d = .ok h → h.pack = .ok (d.take 72)) := by
  refine ⟨?_, ?_, ?_, ?_⟩
  · intro h hvalid hfits
    exact SdrIqHeader.unpack_of_pack hvalid hfits
  · intro d
    exact ⟨SdrIqHeader.unpack_isOk_iff d, fun h => SdrIqHeader.pack_of_unpack⟩
  · intro h hvalid hfits
    exact SdrPsdHeader.unpack_of_pack hvalid hfits
  · intro d
    exact ⟨SdrPsdHeader.unpack_isOk_iff d, fun h => SdrPsdHeader.pack_of_unpack⟩

/-- A header with a negative gain and a full sequence number, and the PSD header of an empty
segment. -/
theorem header_codecs_inverse_negativeGain :
    (∃ bytes, ({ seq := 2 ^ 32 - 1, sampleCount := 256, payloadBytes := 1024, gainDbQ8 := -640 } :
          SdrIqHeader).pack = .ok bytes ∧ bytes.length = 64 ∧
        SdrIqHeader.unpack bytes = .ok
          { seq := 2 ^ 32 - 1, sampleCount := 256, payloadBytes := 1024, gainDbQ8 := -640 }) ∧
      ∃ bytes, ({} : SdrPsdHeader).pack = .ok bytes ∧ bytes.length = 72 ∧
        SdrPsdHeader.unpack bytes = .ok {} := by
  refine ⟨header_codecs_inverse.1 _ rfl ?_, header_codecs_inverse.2.2.1 _ rfl ?_⟩
  · simp only [iqStruct, SdrIqHeader.values, List.forall₂_cons, List.Forall₂.nil]
    decide
  · simp only [psdStruct, SdrPsdHeader.values, List.forall₂_cons, List.Forall₂.nil]
    decide

end Protocol
end Sdr
